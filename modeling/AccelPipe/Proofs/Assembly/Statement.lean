import AccelPipe.Assembly.Program
import AccelPipe.Proofs.Instruction.Encoded

/-! What becomes of one statement. The words that it is given are as many as the first pass has
promised, and a branch goes to its label. -/
namespace AccelPipe

/-- Every mnemonic but the illegal one is found by its name. -/
theorem Mnemonic.ofName?_name {m : Mnemonic} (h : m ≠ .illegal) :
    Mnemonic.ofName? m.name = some m := by
  cases m <;> first | exact absurd rfl h | decide +kernel

namespace Assembly

theorem slidingBase?_name (m : Mnemonic) : slidingBase? m.name = none := by
  cases m <;> decide +kernel

/-- No mnemonic is the name of a short form. -/
theorem emitInstruction_name (c : Context) {m : Mnemonic} (h : m ≠ .illegal) :
    emitInstruction c m.name = emitMnemonic c m := by
  rw [emitInstruction]
  · rw [slidingBase?_name, Mnemonic.ofName?_name h]
  all_goals cases m <;> decide +kernel

/-- An operand is what reading it makes of its token. -/
theorem examine_ok {c : Context} {index : Nat} {α : Type} {read : Token → Except Refusal α}
    {token : Token} {a : α} (hOp : c.ops[index]? = some token) (hRead : read token = .ok a) :
    c.examine read index = .ok a := by
  unfold Context.examine Context.operand
  rw [hOp, ok_bind, hRead]
  rfl

/-- An operand that cannot be read is refused for that reason. -/
theorem examine_error {c : Context} {index : Nat} {α : Type} {read : Token → Except Refusal α}
    {token : Token} {refusal : Refusal} (hOp : c.ops[index]? = some token)
    (hRead : read token = .error refusal) : c.examine read index = .error (.refused refusal) := by
  unfold Context.examine Context.operand
  rw [hOp, ok_bind, hRead]
  rfl

/-- What is read from an operand stands there. -/
theorem ok_of_examine {c : Context} {index : Nat} {α : Type} {read : Token → Except Refusal α}
    {a : α} (h : c.examine read index = .ok a) :
    ∃ token, c.ops[index]? = some token ∧ read token = .ok a := by
  obtain ⟨token, hOp, hRead⟩ := bind_ok h
  unfold Context.operand at hOp
  split at hOp
  · rename_i found hFound
    cases hOp
    exact ⟨token, hFound, mapError_ok hRead⟩
  · cases hOp

/-! How many words there are. -/

/-- All that a computation can come to is so many words, unless it fails. -/
def Yields (count : Nat) (result : Except StatementFault (List Nat)) : Prop :=
  ∀ words, result = .ok words → words.length = count

section Yields

variable {count : Nat}

/-- A fault yields no words at all. -/
theorem yields_error (fault : StatementFault) : Yields count (.error fault) := always_error fault

theorem yields_bind {α : Type} {x : Except StatementFault α}
    {f : α → Except StatementFault (List Nat)} (h : ∀ a, Yields count (f a)) :
    Yields count (x >>= f) := always_bind h

theorem yields_ite {p : Prop} [Decidable p] {x y : Except StatementFault (List Nat)}
    (hX : Yields count x) (hY : Yields count y) : Yields count (if p then x else y) :=
  always_ite hX hY

theorem yields_one (word : Except Refusal Nat) : Yields 1 (one word) := by
  intro words hWords
  obtain ⟨w, -, rfl⟩ := map_ok (mapError_ok hWords)
  rfl

/-- Every instruction is one word. -/
theorem emitMnemonic_yields (c : Context) (m : Mnemonic) : Yields 1 (emitMnemonic c m) := by
  cases m <;> unfold emitMnemonic emitI <;> dsimp only <;>
    repeat' first
      | exact yields_one _
      | exact yields_error _
      | exact fun words hWords => congrArg List.length (Except.ok.inj hWords.symm)
      | apply yields_ite
      | refine yields_bind fun _ => ?_

/-- Every statement is one word, but for the constants that take two. -/
theorem emitInstruction_yields (c : Context) {name : String} (h : name = "li" → c.size = 4) :
    Yields 1 (emitInstruction c name) := by
  unfold emitInstruction emitI
  split <;>
    repeat' first
      | exact yields_one _
      | exact yields_error _
      | exact emitMnemonic_yields _ _
      | rw [if_pos (h rfl)]
      | refine yields_bind fun _ => ?_
  split
  · exact yields_bind fun _ => yields_one _
  · split
    · exact emitMnemonic_yields _ _
    · exact yields_error _

/-- Loading a large constant yields two words. -/
theorem emitInstruction_yields_two (c : Context) (h : c.size ≠ 4) :
    Yields 2 (emitInstruction c "li") := by
  unfold emitInstruction emitI
  refine yields_bind fun rd => yields_bind fun v => ?_
  rw [if_neg h]
  intro words hWords
  obtain ⟨upper, hUpper, hWords⟩ := bind_ok hWords
  obtain ⟨lower, hLower, hWords⟩ := bind_ok hWords
  cases hWords
  rw [List.length_append, yields_one _ upper hUpper, yields_one _ lower hLower]

/-- Data yield one word for each of them. -/
theorem emitData_yields (labels : Labels) (ops : List Token) :
    Yields ops.length (emitData labels ops) := by
  intro words hWords
  exact (mapM_ok hWords).length_eq.symm

/-- Every word of data is what its operand stands for. -/
theorem emitData_getElem? {labels : Labels} {ops : List Token} {words : List Nat}
    (h : emitData labels ops = .ok words) {index : Nat} {token : Token} {v : Int}
    (hToken : ops[index]? = some token) (hValue : value labels token = .ok v) :
    words[index]? = some (u32 v) := by
  have hAll := mapM_ok h
  obtain ⟨hOp, rfl⟩ := List.getElem?_eq_some_iff.mp hToken
  have hWord : index < words.length := hAll.length_eq ▸ hOp
  obtain ⟨v', hValue', hIs⟩ := map_ok (mapError_ok (hAll.get hOp hWord))
  cases hValue.symm.trans hValue'
  rw [List.getElem?_eq_getElem hWord]
  exact congrArg some hIs.symm

end Yields

/-- A statement has the size that its text promises. A placement is as long as it has to be. -/
structure Placed.Sized (p : Placed) : Prop where
  statement : isPlacement p.name = false → p.size = statementSize p.name p.rest
  placement : isPlacement p.name = true → 0 ≤ p.size ∧ p.size % 4 = 0

/-- Loading a constant takes one word or two. -/
theorem loadSize_cases (ops : List Token) : loadSize ops = 4 ∨ loadSize ops = 8 := by
  unfold loadSize
  split
  · split
    · split
      · exact .inl rfl
      · exact .inr rfl
    · exact .inr rfl
  · exact .inr rfl

/-- The size of a constant load whose operand is a number. -/
theorem loadSize_of_readInteger (first : Token) {token : Token} {n : Int}
    (h : Text.readInteger (Text.trim token) = .ok n) :
    loadSize [first, token] = if -2048 ≤ n ∧ n ≤ 2047 then 4 else 8 := by
  unfold loadSize
  dsimp only
  rw [h]

/-- What is not a placement is a number of words. -/
theorem statementSize_words (name rest : List Char) :
    0 ≤ statementSize name rest ∧ statementSize name rest % 4 = 0 := by
  unfold statementSize
  split
  · omega
  · split
    · rcases loadSize_cases (operands rest) with hShort | hLong <;> omega
    · decide

namespace Placed.Sized

variable {p : Placed}

/-- Every statement is a number of words. -/
theorem words (h : p.Sized) : 0 ≤ p.size ∧ p.size % 4 = 0 := by
  cases hPlaces : isPlacement p.name with
  | true => exact h.placement hPlaces
  | false =>
      rw [h.statement hPlaces]
      exact statementSize_words p.name p.rest

end Placed.Sized

/-- The words of a statement that is not a placement, before they are counted. -/
def emitted (labels : Labels) (p : Placed) : Except StatementFault (List Nat) :=
  if p.name = ".word".toList then emitData labels (operands p.rest)
  else emitInstruction ⟨labels, p.address, p.size, operands p.rest⟩ (String.ofList p.name)

/-- A statement is emitted with as many words as have been reserved for it, or is refused. -/
theorem emit_eq {p : Placed} (labels : Labels) (hPlaces : isPlacement p.name = false) :
    emit labels p = match emitted labels p with
      | .error fault => .error ⟨p.line, .statement fault (String.ofList p.text)⟩
      | .ok words =>
        if 4 * (words.length : Int) = p.size then .ok words
        else .error ⟨p.line, .size p.size (4 * words.length)⟩ := by
  unfold emit
  rw [if_neg (by simp [hPlaces])]
  rfl

/-- A placement is filled with zeros, if there is room for them. -/
theorem emit_placement {p : Placed} (labels : Labels) (hPlaces : isPlacement p.name = true) :
    emit labels p = match Room.checkRows 1 (p.size / 4).toNat with
      | .ok () => .ok (List.replicate (p.size / 4).toNat 0)
      | .error lack => .error ⟨p.line, .noRoom lack⟩ := by
  unfold emit
  rw [if_pos hPlaces]
  rfl

/-- A placement becomes the zeros that it skips. -/
theorem replicate_of_emit {p : Placed} {labels : Labels} (hPlaces : isPlacement p.name = true)
    {words : List Nat} (h : emit labels p = .ok words) :
    words = List.replicate (p.size / 4).toNat 0 := by
  rw [emit_placement labels hPlaces] at h
  split at h
  · exact (Except.ok.inj h).symm
  · cases h

/-- The second pass fails at a statement for its operands, for its size or for want of room. -/
theorem emit_error_cases {p : Placed} {labels : Labels} {error : Error}
    (h : emit labels p = .error error) :
    error.line = p.line ∧
      (isPlacement p.name = false ∧ (∃ fault text, error.cause = .statement fault text) ∨
        isPlacement p.name = false ∧ (∃ words, emitted labels p = .ok words ∧
          4 * (words.length : Int) ≠ p.size ∧ error.cause = .size p.size (4 * words.length)) ∨
        isPlacement p.name = true ∧ ∃ lack, Room.checkRows 1 (p.size / 4).toNat = .error lack ∧
          error.cause = .noRoom lack) := by
  cases hPlaces : isPlacement p.name with
  | false =>
      rw [emit_eq labels hPlaces] at h
      split at h
      · cases h
        exact ⟨rfl, .inl ⟨rfl, _, _, rfl⟩⟩
      · rename_i words hWords
        split at h
        · cases h
        · rename_i hOther
          cases h
          exact ⟨rfl, .inr (.inl ⟨rfl, words, hWords, hOther, rfl⟩)⟩
  | true =>
      rw [emit_placement labels hPlaces] at h
      split at h
      · cases h
      · rename_i lack hLack
        cases h
        exact ⟨rfl, .inr (.inr ⟨rfl, lack, hLack, rfl⟩)⟩

theorem emitted_of_emit {p : Placed} {labels : Labels} (hPlaces : isPlacement p.name = false)
    {words : List Nat} (h : emit labels p = .ok words) : emitted labels p = .ok words := by
  rw [emit_eq labels hPlaces] at h
  split at h
  · cases h
  · rename_i found hFound
    split at h
    · cases h
      exact hFound
    · cases h

/-- An instruction is emitted at its address, with its labels. -/
theorem emitInstruction_of_emit {p : Placed} {labels : Labels}
    (hPlaces : isPlacement p.name = false) (hData : p.name ≠ ".word".toList) {words : List Nat}
    (h : emit labels p = .ok words) :
    emitInstruction ⟨labels, p.address, p.size, operands p.rest⟩ (String.ofList p.name) =
      .ok words := by
  have hEmitted := emitted_of_emit hPlaces h
  unfold emitted at hEmitted
  rwa [if_neg hData] at hEmitted

/-- The two passes count alike. -/
theorem Placed.Sized.count {p : Placed} (h : p.Sized) (hPlaces : isPlacement p.name = false)
    {labels : Labels} {words : List Nat} (hWords : emitted labels p = .ok words) :
    4 * (words.length : Int) = p.size := by
  have hSize := h.statement hPlaces
  unfold statementSize at hSize
  unfold emitted at hWords
  split at hWords
  · rename_i hData
    rw [if_pos hData] at hSize
    rw [hSize, emitData_yields _ _ words hWords]
  rename_i hData
  rw [if_neg hData] at hSize
  by_cases hLoad : p.name = "li".toList
  · rw [if_pos hLoad] at hSize
    rw [hLoad, String.ofList_toList] at hWords
    by_cases hShort : p.size = 4
    · rw [emitInstruction_yields _ (fun _ => hShort) words hWords, hShort]
      rfl
    · have hLong : p.size = 8 := (hSize ▸ loadSize_cases _).resolve_left hShort
      rw [emitInstruction_yields_two _ hShort words hWords, hLong]
      rfl
  · rw [if_neg hLoad] at hSize
    have hOther : String.ofList p.name ≠ "li" := by
      intro hIs
      rw [← hIs, String.toList_ofList] at hLoad
      exact hLoad rfl
    rw [emitInstruction_yields _ (fun hIs => absurd hIs hOther) words hWords, hSize]
    rfl

/-- A statement that is emitted takes up the size that it was given. -/
theorem Placed.Sized.emit_length {p : Placed} (h : p.Sized) {labels : Labels} {words : List Nat}
    (hWords : emit labels p = .ok words) : 4 * (words.length : Int) = p.size := by
  cases hPlaces : isPlacement p.name with
  | false =>
      exact h.count hPlaces (emitted_of_emit hPlaces hWords)
  | true =>
      obtain ⟨hPos, hWhole⟩ := h.placement hPlaces
      rw [replicate_of_emit hPlaces hWords, List.length_replicate]
      omega

/-- The second pass never finds another size than the first. -/
theorem Placed.Sized.emit_error {p : Placed} (h : p.Sized) {labels : Labels} {error : Error}
    (hFails : emit labels p = .error error) (expected actual : Int) :
    error.cause ≠ .size expected actual := by
  obtain ⟨-, ⟨-, _, _, hCause⟩ | ⟨hPlaces, words, hWords, hOther, -⟩ | ⟨-, _, -, hCause⟩⟩ :=
    emit_error_cases hFails
  · rw [hCause]
    nofun
  · exact absurd (h.count hPlaces hWords) hOther
  · rw [hCause]
    nofun

/-! Branches to labels. -/

/-- The operand of a statement that says where it goes, among so many. -/
def targetIndex? (name : String) (count : Nat) : Option Nat :=
  match name with
  | "j" => some 0
  | "jal" => some (if count = 1 then 0 else 1)
  | "beqz" | "bnez" => some 1
  | "beq" | "bne" | "blt" | "bge" | "bltu" | "bgeu" => some 2
  | _ => none

/-- An instruction that goes by a distance, taken or not. -/
def GoesBy (words : List Nat) (offset : Int) : Prop :=
  ∃ w : Nat, words = [w] ∧ (Instruction.decode w).imm = offset ∧
    ((Instruction.decode w).mnemonic.format = .b ∨ (Instruction.decode w).mnemonic = .jal)

/-- A branch goes by its distance. -/
theorem goesBy_b {m : Mnemonic} (hFormat : m.format = .b) {rs1 rs2 offset : Int}
    {words : List Nat} (h : one (Encode.b m.funct3 rs1 rs2 offset) = .ok words) :
    GoesBy words offset := by
  obtain ⟨w, hWord, rfl⟩ := map_ok (mapError_ok h)
  obtain ⟨hMnemonic, hImm⟩ := Instruction.decode_b hFormat hWord
  exact ⟨w, rfl, hImm, .inl (by rw [hMnemonic, hFormat])⟩

theorem goesBy_j {rd offset : Int} {words : List Nat}
    (h : one (Encode.j rd offset) = .ok words) : GoesBy words offset := by
  obtain ⟨w, hWord, rfl⟩ := map_ok (mapError_ok h)
  obtain ⟨hMnemonic, hImm⟩ := Instruction.decode_j hWord
  exact ⟨w, rfl, hImm, .inr hMnemonic⟩

/-- Every branch goes by the distance of its third operand. -/
theorem goesBy_emitMnemonic {c : Context} {m : Mnemonic} (hFormat : m.format = .b)
    {words : List Nat} (h : emitMnemonic c m = .ok words) :
    ∃ offset, c.dist 2 = .ok offset ∧ GoesBy words offset := by
  have hShape : emitMnemonic c m = (do
      let rs1 ← c.reg 0
      let rs2 ← c.reg 1
      let offset ← c.dist 2
      one (Encode.b m.funct3 rs1 rs2 offset)) := by
    cases m <;> first | cases hFormat; done | rfl
  rw [hShape] at h
  obtain ⟨rs1, -, h⟩ := bind_ok h
  obtain ⟨rs2, -, h⟩ := bind_ok h
  obtain ⟨offset, hOffset, h⟩ := bind_ok h
  exact ⟨offset, hOffset, goesBy_b hFormat h⟩

/-- Every instruction with a target goes by the distance of that operand. -/
theorem goesBy_emitInstruction {c : Context} {name : String} {index : Nat}
    (hTarget : targetIndex? name c.ops.length = some index) {words : List Nat}
    (h : emitInstruction c name = .ok words) :
    ∃ offset, c.dist index = .ok offset ∧ GoesBy words offset := by
  have hMnemonic : ∀ m : Mnemonic, m ≠ .illegal → m.name = name → emitMnemonic c m = .ok words := by
    intro m hLegal hName
    rw [← emitInstruction_name c hLegal, hName]
    exact h
  have hBranch : ∀ m : Mnemonic, m.format = .b → m.name = name →
      ∃ offset, c.dist 2 = .ok offset ∧ GoesBy words offset := by
    intro m hFormat hName
    exact goesBy_emitMnemonic hFormat (hMnemonic m (by rintro rfl; cases hFormat) hName)
  unfold targetIndex? at hTarget
  split at hTarget <;> cases hTarget
  case h_1 =>
    rw [emitInstruction] at h
    obtain ⟨offset, hOffset, h⟩ := bind_ok h
    exact ⟨offset, hOffset, goesBy_j h⟩
  case h_2 =>
    have hJal := hMnemonic .jal nofun rfl
    unfold emitMnemonic at hJal
    dsimp only at hJal
    split at hJal
    · obtain ⟨offset, hOffset, h⟩ := bind_ok hJal
      rw [if_pos ‹_›]
      exact ⟨offset, hOffset, goesBy_j h⟩
    · obtain ⟨rd, -, h⟩ := bind_ok hJal
      obtain ⟨offset, hOffset, h⟩ := bind_ok h
      rw [if_neg ‹_›]
      exact ⟨offset, hOffset, goesBy_j h⟩
  case h_3 =>
    rw [emitInstruction] at h
    obtain ⟨rs, -, h⟩ := bind_ok h
    obtain ⟨offset, hOffset, h⟩ := bind_ok h
    exact ⟨offset, hOffset, goesBy_b (m := .beq) rfl h⟩
  case h_4 =>
    rw [emitInstruction] at h
    obtain ⟨rs, -, h⟩ := bind_ok h
    obtain ⟨offset, hOffset, h⟩ := bind_ok h
    exact ⟨offset, hOffset, goesBy_b (m := .bne) rfl h⟩
  case h_5 => exact hBranch .beq rfl rfl
  case h_6 => exact hBranch .bne rfl rfl
  case h_7 => exact hBranch .blt rfl rfl
  case h_8 => exact hBranch .bge rfl rfl
  case h_9 => exact hBranch .bltu rfl rfl
  case h_10 => exact hBranch .bgeu rfl rfl

end Assembly

end AccelPipe

import AccelPipe.Proofs.Assembly.Label
import AccelPipe.Proofs.Assembly.Operand
import AccelPipe.Proofs.Instruction.Inverse

/-! Numbers as operands. A token that reads as a number stands for it wherever a label may stand,
unless a line defines that very token with a colon behind it; then the address of the line is taken
for the number. -/
namespace AccelPipe

/-- The operand of an instruction that is its immediate, among so many. -/
def Mnemonic.immediateIndex? (m : Mnemonic) (count : Nat) : Option Nat :=
  match m with
  | .addi | .slti | .sltiu | .xori | .ori | .andi | .slli | .srli | .srai | .reluB => some 2
  | .jalr => if count = 1 ∨ count = 2 then none else some 2
  | .lui | .auipc => some 1
  | _ => none

namespace Assembly

open Instruction

/-! What a statement makes of the number of an operand. -/

/-- One instruction with a number as its immediate; that of an upper immediate stands twelve bits
higher. -/
def Carries (words : List Nat) (m : Mnemonic) (n : Int) : Prop :=
  ∃ w : Nat, words = [w] ∧ (decode w).mnemonic = m ∧
    (decode w).imm = if m.format = .u then s32 (n * 0x1000) else n

/-- Instructions that leave a number in a register: one that adds it to zero, or one for each of
two parts. -/
def Loads (words : List Nat) (n : Int) : Prop :=
  (∃ w : Nat, words = [w] ∧ (decode w).mnemonic = .addi ∧ (decode w).rs1 = 0 ∧
    (decode w).imm = n) ∨
  ∃ upper lower : Nat, words = [upper, lower] ∧ (decode upper).mnemonic = .lui ∧
    (decode lower).mnemonic = .addi ∧ (decode lower).rs1 = (decode upper).rd ∧
    (decode lower).rd = (decode upper).rd ∧
    u32 ((decode upper).imm + (decode lower).imm) = u32 n

/-- Instructions that leave a number in this register, as `Loads` has it. -/
def LoadsInto (words : List Nat) (rd : Nat) (n : Int) : Prop :=
  (∃ w : Nat, words = [w] ∧ (decode w).mnemonic = .addi ∧ (decode w).rs1 = 0 ∧
    (decode w).rd = rd ∧ (decode w).imm = n) ∨
  ∃ upper lower : Nat, words = [upper, lower] ∧ (decode upper).mnemonic = .lui ∧
    (decode upper).rd = rd ∧ (decode lower).mnemonic = .addi ∧ (decode lower).rs1 = rd ∧
    (decode lower).rd = rd ∧ u32 ((decode upper).imm + (decode lower).imm) = u32 n

theorem LoadsInto.loads {words : List Nat} {rd : Nat} {n : Int} (h : LoadsInto words rd n) :
    Loads words n := by
  rcases h with ⟨w, hWords, hAddi, hRs1, -, hImm⟩ |
    ⟨upper, lower, hWords, hLui, hDest, hAddi, hRs1, hRd, hSum⟩
  · exact .inl ⟨w, hWords, hAddi, hRs1, hImm⟩
  · exact .inr ⟨upper, lower, hWords, hLui, hAddi, hRs1.trans hDest.symm, hRd.trans hDest.symm,
      hSum⟩

section Words

variable {c : Context} {m : Mnemonic} {index rd rs1 : Nat} {n : Int} {words : List Nat}

theorem carries_emitI (hFormat : m.format = .i) (hShifts : m.shifts = false)
    (hSystem : m.kind ≠ .system) (h : emitI m rd rs1 n = .ok words) : Carries words m n := by
  obtain ⟨w, hWord, rfl⟩ := map_ok (mapError_ok h)
  obtain ⟨hMnemonic, -, -, hImm⟩ := decode_i hFormat hShifts hSystem hWord
  refine ⟨w, rfl, hMnemonic, ?_⟩
  rw [hImm, if_neg (by rw [hFormat]; decide)]

theorem carries_shift (hShifts : m.shifts = true)
    (h : one (Encode.r m.opcode rd m.funct3 rs1 n m.funct7) = .ok words) : Carries words m n := by
  obtain ⟨w, hWord, rfl⟩ := map_ok (mapError_ok h)
  obtain ⟨hMnemonic, hImm⟩ := decode_shift hShifts hWord
  refine ⟨w, rfl, hMnemonic, ?_⟩
  rw [hImm, if_neg (by cases m <;> first | cases hShifts; done | decide)]

theorem carries_u (hFormat : m.format = .u) (hLow : 0 ≤ n) (hHigh : n ≤ 0xfffff)
    (h : one (Encode.u m.opcode rd n) = .ok words) : Carries words m n := by
  obtain ⟨w, hWord, rfl⟩ := map_ok (mapError_ok h)
  obtain ⟨hMnemonic, -, hImm⟩ := decode_u hFormat hWord
  refine ⟨w, rfl, hMnemonic, ?_⟩
  rw [hImm, if_pos hFormat, Int.emod_eq_of_lt hLow (by omega)]

/-- An instruction has the number of its operand as its immediate. -/
theorem carries_emitMnemonic (hIndex : m.immediateIndex? c.ops.length = some index)
    (hVal : c.val index = .ok n) (hNum : c.num index = .ok n)
    (h : emitMnemonic c m = .ok words) : Carries words m n := by
  unfold Mnemonic.immediateIndex? at hIndex
  unfold emitMnemonic at h
  cases m <;> dsimp only at hIndex h
  all_goals try (cases hIndex; done)
  case jalr =>
    split at hIndex
    · cases hIndex
    · rename_i hCount
      cases hIndex
      rw [if_neg fun hOne => hCount (.inl hOne), if_neg fun hTwo => hCount (.inr hTwo)] at h
      obtain ⟨rs1, -, h⟩ := bind_ok h
      rw [hNum, ok_bind] at h
      obtain ⟨rd, -, h⟩ := bind_ok h
      exact carries_emitI rfl rfl nofun h
  case lui | auipc =>
    cases hIndex
    rw [hVal, ok_bind] at h
    split at h
    · rename_i hRange
      obtain ⟨rd, -, h⟩ := bind_ok h
      exact carries_u rfl hRange.1 hRange.2 h
    · cases h
  case slli | srli | srai =>
    cases hIndex
    rw [hNum, ok_bind] at h
    split at h
    · obtain ⟨rd, -, h⟩ := bind_ok h
      obtain ⟨rs1, -, h⟩ := bind_ok h
      exact carries_shift rfl h
    · cases h
  case addi | slti | sltiu | xori | ori | andi | reluB =>
    cases hIndex
    obtain ⟨rd, -, h⟩ := bind_ok h
    obtain ⟨rs1, -, h⟩ := bind_ok h
    rw [hVal, ok_bind] at h
    exact carries_emitI rfl rfl nofun h

/-- What has an immediate is neither a placement nor data. -/
theorem instruction_of_immediateIndex? {count : Nat}
    (h : m.immediateIndex? count = some index) :
    isPlacement m.name.toList = false ∧ m.name.toList ≠ ".word".toList ∧ m ≠ .illegal := by
  cases m <;> first | cases h; done | exact ⟨by decide, by decide, nofun⟩

theorem loadsInto_li (hReg : c.reg 0 = .ok rd) (hVal : c.val 1 = .ok n)
    (h : emitInstruction c "li" = .ok words) : LoadsInto words rd n := by
  rw [emitInstruction, hReg, ok_bind, hVal, ok_bind] at h
  split at h
  · obtain ⟨w, hWord, rfl⟩ := map_ok (mapError_ok h)
    obtain ⟨hMnemonic, hRd, hRs1, hImm⟩ := decode_i rfl rfl (by decide) hWord
    exact .inl ⟨w, rfl, hMnemonic, Int.natCast_eq_zero.mp hRs1, Int.natCast_inj.mp hRd, hImm⟩
  · obtain ⟨hSmall, hSum⟩ := splitConstant_sum n
    generalize splitConstant n = parts at h hSmall hSum
    obtain ⟨_, hUpper, h⟩ := bind_ok h
    obtain ⟨_, hLower, h⟩ := bind_ok h
    cases h
    obtain ⟨upper, hHigh, rfl⟩ := map_ok (mapError_ok hUpper)
    obtain ⟨lower, hLow, rfl⟩ := map_ok (mapError_ok hLower)
    obtain ⟨hLui, hDest, hTop⟩ := decode_u (m := .lui) rfl hHigh
    obtain ⟨hAddi, hSame, hFrom, hRest⟩ := decode_i (m := .addi) rfl rfl (by decide) hLow
    refine .inr ⟨upper, lower, rfl, hLui, Int.natCast_inj.mp hDest, hAddi,
      Int.natCast_inj.mp hFrom, Int.natCast_inj.mp hSame, ?_⟩
    rw [hTop, hRest, Int.emod_eq_of_lt (Int.natCast_nonneg _) (by exact_mod_cast hSmall)]
    exact hSum

theorem loads_li (hVal : c.val 1 = .ok n) (h : emitInstruction c "li" = .ok words) :
    Loads words n := by
  have hRest := h
  rw [emitInstruction] at hRest
  obtain ⟨rd, hReg, -⟩ := bind_ok hRest
  exact (loadsInto_li hReg hVal h).loads

end Words

/-- What a token stands for in a program, and what the statements make of it that have it as an
operand. -/
structure Program.Takes (program : Program) (token : Token) (n : Int) : Prop where
  value : value program.labels token = .ok n
  distance : ∀ pc, distance program.labels pc token = .ok n
  data : ∀ (placed : Placed) (words : List Nat) (index : Nat),
    (placed, words) ∈ program.statements → placed.name = ".word".toList →
    (operands placed.rest)[index]? = some token → words[index]? = some (u32 n)
  load : ∀ (placed : Placed) (words : List Nat), (placed, words) ∈ program.statements →
    placed.name = "li".toList → (operands placed.rest)[1]? = some token → Loads words n
  immediate : ∀ (placed : Placed) (words : List Nat) (m : Mnemonic) (index : Nat),
    (placed, words) ∈ program.statements → placed.name = m.name.toList →
    m.immediateIndex? (operands placed.rest).length = some index →
    (operands placed.rest)[index]? = some token → Carries words m n
  target : ∀ (placed : Placed) (words : List Nat) (index : Nat),
    (placed, words) ∈ program.statements →
    targetIndex? (String.ofList placed.name) (operands placed.rest).length = some index →
    (operands placed.rest)[index]? = some token → GoesBy words n

section Program

variable {source : List Char} {base : Int} {program : Program} {token : Token} {n : Int}

theorem emit_of_assemble (h : assemble source base = .ok program) {placed : Placed}
    {words : List Nat} (hIn : (placed, words) ∈ program.statements) :
    emit program.labels placed = .ok words := by
  obtain ⟨l, -, -, -, hEmitted⟩ := assemble_ok h
  exact hEmitted _ hIn

/-- A number that is no label in the table is a number to every statement. -/
theorem takes_of_readInteger (h : assemble source base = .ok program)
    (hNumber : Text.readInteger (Text.trim token) = .ok n)
    (hOther : program.labels.lookup (Text.trim token) = none) : program.Takes token n := by
  have hValue := value_of_readInteger hOther hNumber
  refine ⟨hValue, distance_of_readInteger hOther hNumber, ?_, ?_, ?_, ?_⟩
  · intro placed words index hIn hName hToken
    have hPlaces : isPlacement placed.name = false := by
      rw [hName]
      decide
    have hEmitted := emitted_of_emit hPlaces (emit_of_assemble h hIn)
    unfold emitted at hEmitted
    rw [if_pos hName] at hEmitted
    exact emitData_getElem? hEmitted hToken hValue
  · intro placed words hIn hName hToken
    have hEmitted := emitInstruction_of_emit (by rw [hName]; decide) (by rw [hName]; decide)
      (emit_of_assemble h hIn)
    rw [hName, String.ofList_toList] at hEmitted
    exact loads_li (examine_ok hToken hValue) hEmitted
  · intro placed words m index hIn hName hIndex hToken
    obtain ⟨hPlaces, hData, hLegal⟩ := instruction_of_immediateIndex? hIndex
    have hEmitted := emitInstruction_of_emit (by rw [hName]; exact hPlaces)
      (by rw [hName]; exact hData) (emit_of_assemble h hIn)
    rw [hName, String.ofList_toList, emitInstruction_name _ hLegal] at hEmitted
    exact carries_emitMnemonic hIndex (examine_ok hToken hValue)
      (examine_ok hToken (number_of_readInteger hNumber)) hEmitted
  · intro placed words index hIn hTarget hToken
    obtain ⟨hPlaces, hData⟩ := instruction_of_targetIndex? hTarget
    obtain ⟨offset, hOffset, hGoes⟩ := goesBy_emitInstruction hTarget
      (emitInstruction_of_emit hPlaces hData (emit_of_assemble h hIn))
    have hSame : offset = n := Except.ok.inj (hOffset.symm.trans
      (examine_ok hToken (distance_of_readInteger hOther hNumber _)))
    rwa [hSame] at hGoes

/-- Which numbers are numbers. All names in the table are identifiers exactly if no line defines
another name. A token that reads as a number is in the table exactly if a line defines it; every
other one means its number in each place where a label may stand. -/
theorem numbers_stand (h : assemble source base = .ok program) :
    ((∀ entry ∈ program.labels, IsIdentifier entry.1) ↔ strays source = []) ∧
    ∀ token n, Text.readInteger (Text.trim token) = .ok n →
      ((program.labels.lookup (Text.trim token)).isSome ↔ Text.trim token ∈ strays source) ∧
      (Text.trim token ∉ strays source → program.Takes token n) := by
  refine ⟨identifiers_iff h, fun token n hNumber => ?_⟩
  have hDefined := lookup_iff_stray h (not_isIdentifier_of_number hNumber)
  refine ⟨hDefined, fun hOther => takes_of_readInteger h hNumber ?_⟩
  exact Option.not_isSome_iff_eq_none.mp fun hSome => hOther (hDefined.mp hSome)

end Program

/-- A number in front of a colon, and data that has it as an operand. -/
def numbered : List Char := "nop\n5:\n.word 5, 6".toList

theorem splitOn_numbered :
    numbered.splitOn '\n' = ["nop".toList, "5:".toList, ".word 5, 6".toList] := by
  decide +kernel

/-- None of the lines has a label in front. -/
theorem leadingLabel?_numbered :
    leadingLabel? (meaning "nop".toList) = none ∧ leadingLabel? (meaning "5:".toList) = none ∧
      leadingLabel? (meaning ".word 5, 6".toList) = none := by
  decide +kernel

theorem items_numbered :
    items numbered =
      [.statement 1 "nop".toList, .label 2 "5".toList, .statement 3 ".word 5, 6".toList] := by
  obtain ⟨hFirst, hSecond, hThird⟩ := leadingLabel?_numbered
  unfold items
  rw [splitOn_numbered, itemsFrom, itemsFrom, itemsFrom, itemsFrom, itemsOfText_of_none _ hFirst,
    itemsOfText_of_none _ hSecond, itemsOfText_of_none _ hThird]
  rfl

theorem strays_numbered : strays numbered = ["5".toList] := by
  obtain ⟨hFirst, hSecond, hThird⟩ := leadingLabel?_numbered
  unfold strays
  rw [splitOn_numbered]
  simp only [List.map_cons, List.map_nil, List.filterMap_cons, List.filterMap_nil,
    stray?_of_none hFirst, stray?_of_none hSecond, stray?_of_none hThird]
  rfl

theorem assemble_numbered :
    ∃ program, assemble numbered 0 = .ok program ∧ program.labels = [("5".toList, 4)] ∧
      program.words = [0x13, 4, 6] := by
  have hAll : (assemble numbered 0).toOption.map (fun p => (p.labels, p.words)) =
      some ([("5".toList, 4)], [0x13, 4, 6]) := by
    unfold assemble
    rw [items_numbered]
    decide +kernel
  obtain ⟨program, hProgram, hIs⟩ := Option.map_eq_some_iff.mp hAll
  exact ⟨program, ok_of_toOption hProgram, (Prod.mk.inj hIs).1, (Prod.mk.inj hIs).2⟩

/-- The line takes the number from the data behind it, and leaves it the others. -/
theorem numbers_stand_of_numbered :
    ∃ program, assemble numbered 0 = .ok program ∧ program.words = [0x13, 4, 6] ∧
      strays numbered = ["5".toList] ∧ (program.labels.lookup "5".toList).isSome ∧
      program.Takes "6".toList 6 := by
  obtain ⟨program, hProgram, -, hWords⟩ := assemble_numbered
  obtain ⟨-, hNumbers⟩ := numbers_stand hProgram
  have hFive := hNumbers "5".toList 5 (by decide +kernel)
  have hSix := hNumbers "6".toList 6 (by decide +kernel)
  refine ⟨program, hProgram, hWords, strays_numbered, hFive.1.mpr ?_, hSix.2 ?_⟩ <;>
    rw [strays_numbered] <;> decide +kernel

/-- A number does not always mean itself. -/
theorem not_numbers_stand_of_numbered :
    ¬ ∀ source base program, assemble source base = .ok program →
      ∀ token n, Text.readInteger (Text.trim token) = .ok n →
        program.labels.lookup (Text.trim token) = none ∧ value program.labels token = .ok n := by
  intro hAll
  obtain ⟨program, hProgram, hLabels, -⟩ := assemble_numbered
  obtain ⟨hNone, -⟩ := hAll numbered 0 program hProgram "5".toList 5 (by decide +kernel)
  rw [hLabels] at hNone
  revert hNone
  decide +kernel

end Assembly

end AccelPipe

import AccelPipe.Failure
import AccelPipe.Proofs.Assembly.Laid
import AccelPipe.Proofs.Assembly.Layout
import AccelPipe.Proofs.Instruction.Inverse

/-! Where errors are. Whatever the operands of a statement are, the assembler makes words of it or
says on which line it cannot; only a placement that is out of all proportion fails otherwise. -/
namespace AccelPipe

namespace Assembly

/-! The lines of items. -/

/-- Items are on the line that they come from. -/
theorem itemsOfText_line {line : Nat} {text : List Char} :
    ∀ item ∈ itemsOfText line text, item.line = line := by
  induction text using itemsOfText.induct with
  | case1 text name after hLabel _ ih =>
      rw [itemsOfText_label hLabel]
      exact List.forall_mem_cons.mpr ⟨rfl, ih⟩
  | case2 text hNone hEmpty =>
      rw [itemsOfText_of_none line hNone, if_pos hEmpty]
      exact fun _ => nofun
  | case3 text hNone hSome hColon =>
      rw [itemsOfText_of_none line hNone, if_neg hSome, if_pos hColon]
      exact List.forall_mem_singleton.mpr rfl
  | case4 text hNone hSome hPlain =>
      rw [itemsOfText_of_none line hNone, if_neg hSome, if_neg hPlain]
      exact List.forall_mem_singleton.mpr rfl

theorem itemsFrom_line {line : Nat} {raws : List (List Char)} :
    ∀ item ∈ itemsFrom line raws, line ≤ item.line ∧ item.line < line + raws.length := by
  induction raws generalizing line with
  | nil => exact fun _ => nofun
  | cons raw rest ih =>
      intro item hIn
      rw [List.length_cons]
      rcases List.mem_append.mp hIn with hHere | hLater
      · have hLine := itemsOfText_line item hHere
        omega
      · have hRange := ih item hLater
        omega

/-- Items stand on the lines of their source. -/
theorem items_line {source : List Char} {item : Item} (h : item ∈ items source) :
    1 ≤ item.line ∧ item.line ≤ (source.splitOn '\n').length := by
  have hRange := itemsFrom_line item h
  omega

/-! The first pass, from any base address. -/

/-- No statement has a negative size. -/
theorem sizeAt_nonneg {line : Nat} {name rest : List Char} {pc size : Int}
    (h : sizeAt line name rest pc = .ok size) : 0 ≤ size := by
  rcases sizeAt_ok h with ⟨-, rfl⟩ | ⟨-, target, -, hNotBehind, -, rfl⟩
  · exact (statementSize_words name rest).1
  · omega

/-- A target to which a placement of a source moves. -/
def Places (source : List Char) (target : Int) : Prop :=
  ∃ line text, Item.statement line text ∈ items source ∧
    isPlacement (nameAndRest text).1 = true ∧
    Text.readInteger (Text.trim (nameAndRest text).2) = .ok target

/-- What the first pass has made of some items: statements that stand among them, each of which has
the size that its text asks for at its address. -/
structure Layout.Reads (base : Int) (items : List Item) (l : Layout) : Prop where
  finish : base ≤ l.finish
  among : ∀ p ∈ l.statements, p.item ∈ items
  parts : ∀ p ∈ l.statements, nameAndRest p.text = (p.name, p.rest)
  behind : ∀ p ∈ l.statements, base ≤ p.address
  sizes : ∀ p ∈ l.statements, sizeAt p.line p.name p.rest p.address = .ok p.size

namespace Layout.Reads

variable {base : Int} {items : List Item} {l l' : Layout}

/-- Every item that is laid out is one of the source. -/
theorem add (h : l.Reads base items) {item : Item} (hIn : item ∈ items)
    (hAdd : l.add item = .ok l') : l'.Reads base items := by
  rcases Layout.add_ok hAdd with ⟨line, name, -, -, rfl⟩ | ⟨p, rfl, hParts, hAddress, hSize, rfl⟩
  · exact ⟨h.finish, h.among, h.parts, h.behind, h.sizes⟩
  · have hPos := sizeAt_nonneg hSize
    have hFinish := h.finish
    refine ⟨?_, List.forall_mem_cons.mpr ⟨hIn, h.among⟩,
      List.forall_mem_cons.mpr ⟨hParts, h.parts⟩, List.forall_mem_cons.mpr ⟨?_, h.behind⟩,
      List.forall_mem_cons.mpr ⟨hSize, h.sizes⟩⟩
    · dsimp only
      omega
    · rw [hAddress]
      exact hFinish

theorem foldlM (h : l.Reads base items) {more : List Item} (hSub : ∀ item ∈ more, item ∈ items)
    (hAll : more.foldlM Layout.add l = .ok l') : l'.Reads base items := by
  induction more generalizing l with
  | nil =>
      cases hAll
      exact h
  | cons item more ih =>
      rw [List.foldlM_cons] at hAll
      obtain ⟨next, hAdd, hAll⟩ := bind_ok hAll
      obtain ⟨hFirst, hRest⟩ := List.forall_mem_cons.mp hSub
      exact ih (h.add hFirst hAdd) hRest hAll

end Layout.Reads

/-- So a layout only has what the source has. -/
theorem reads_of_layout {base : Int} {items : List Item} {l : Layout}
    (h : layout base items = .ok l) : l.Reads base items := by
  obtain ⟨final, hFinal, h⟩ := bind_ok h
  cases h
  have hStart : Layout.Reads base items ⟨[], [], base⟩ :=
    ⟨Int.le_refl base, nofun, nofun, nofun, nofun⟩
  have hAll := hStart.foldlM (fun _ hIn => hIn) hFinal
  have hSame : ∀ p ∈ final.statements.reverse, p ∈ final.statements :=
    fun _ hIn => List.mem_reverse.mp hIn
  exact ⟨hAll.finish, fun p hIn => hAll.among p (hSame p hIn),
    fun p hIn => hAll.parts p (hSame p hIn), fun p hIn => hAll.behind p (hSame p hIn),
    fun p hIn => hAll.sizes p (hSame p hIn)⟩

/-- The room in front of a target is no more than what is between it and the base address. -/
theorem Layout.Reads.placement {source : List Char} {base : Int} {l : Layout}
    (h : l.Reads base (items source)) {p : Placed} (hIn : p ∈ l.statements)
    (hPlaces : isPlacement p.name = true) :
    ∃ target, Places source target ∧ p.size ≤ target - base := by
  have hParts := h.parts p hIn
  have hBehind := h.behind p hIn
  rcases sizeAt_ok (h.sizes p hIn) with ⟨hPlain, -⟩ | ⟨-, target, hTarget, -, -, hSize⟩
  · cases hPlain.symm.trans hPlaces
  · refine ⟨target, ⟨p.line, p.text, h.among p hIn, ?_, ?_⟩, by omega⟩
    · rw [hParts]
      exact hPlaces
    · rw [hParts]
      exact hTarget

/-! The second pass. -/

/-- The second pass fails at the line of a statement; for want of room only if the statement is a
placement with too many words in front of its target. -/
theorem emit_line {labels : Labels} {p : Placed} {error : Error}
    (h : emit labels p = .error error) :
    error.line = p.line ∧ ∀ lack, error.cause = .noRoom lack →
      isPlacement p.name = true ∧ Room.maxWords ≤ (p.size / 4).toNat := by
  obtain ⟨hLine, ⟨-, _, _, hCause⟩ | ⟨-, _, -, -, hCause⟩ | ⟨hPlaces, lack, hLack, -⟩⟩ :=
    emit_error_cases h
  · rw [hCause]
    exact ⟨hLine, nofun⟩
  · rw [hCause]
    exact ⟨hLine, nofun⟩
  · refine ⟨hLine, fun _ _ => ⟨hPlaces, ?_⟩⟩
    by_contra hFew
    have hFits : Room.checkRows 1 (p.size / 4).toNat = .ok () :=
      Room.checkRows_ok (by omega) (by omega)
    cases hFits.symm.trans hLack

/-- All that a statement can come to are words of 32 bits. -/
def Wide (result : Except StatementFault (List Nat)) : Prop :=
  Always (fun words => ∀ w ∈ words, w < 0x100000000) result

section Wide

variable (c : Context)

/-- An encoded word has 32 bits. -/
theorem wide_one {word : Except Refusal Nat} {fits : Prop} {shows : Nat → Prop}
    (h : Encode.Encodes word fits shows) : Wide (one word) := by
  intro words hWords
  obtain ⟨w, hWord, rfl⟩ := map_ok (mapError_ok hWords)
  exact List.forall_mem_singleton.mpr (h.made w hWord).1

theorem wide_emitI (m : Mnemonic) (rd rs1 : Nat) (imm : Int) : Wide (emitI m rd rs1 imm) :=
  wide_one (Encode.encodes_i _ _ _ _ _)

/-- Every encoder stays within its word. -/
theorem wide_emitMnemonic (m : Mnemonic) : Wide (emitMnemonic c m) := by
  unfold emitMnemonic
  cases m <;> dsimp only
  case add | sub | sll | slt | sltu | xor | srl | sra | or | and | mac | macW | maca | macz | conv2d |
      pool | poolMax | poolAvg =>
    exact always_bind fun _ => always_bind fun _ => always_bind fun _ =>
      wide_one (Encode.encodes_r _ _ _ _ _ _)
  case addi | slti | sltiu | xori | ori | andi | reluB =>
    exact always_bind fun _ => always_bind fun _ => always_bind fun _ => wide_emitI _ _ _ _
  case slli | srli | srai =>
    exact always_bind fun _ => always_ite
      (always_bind fun _ => always_bind fun _ => wide_one (Encode.encodes_r _ _ _ _ _ _))
      (always_error _)
  case lui | auipc =>
    exact always_bind fun _ => always_ite
      (always_bind fun _ => wide_one (Encode.encodes_u _ _ _)) (always_error _)
  case lw | conv2dLd | firLd =>
    exact always_bind fun _ => always_bind fun _ => wide_emitI _ _ _ _
  case sw =>
    exact always_bind fun _ => always_bind fun _ => wide_one (Encode.encodes_s _ _ _ _ _)
  case beq | bne | blt | bge | bltu | bgeu =>
    exact always_bind fun _ => always_bind fun _ => always_bind fun _ =>
      wide_one (Encode.encodes_b _ _ _ _)
  case jal =>
    exact always_ite (always_bind fun _ => wide_one (Encode.encodes_j _ _))
      (always_bind fun _ => always_bind fun _ => wide_one (Encode.encodes_j _ _))
  case jalr =>
    exact always_ite (always_bind fun _ => wide_emitI _ _ _ _)
      (always_ite (always_bind fun _ => always_bind fun _ => wide_emitI _ _ _ _)
        (always_bind fun _ => always_bind fun _ => always_bind fun _ => wide_emitI _ _ _ _))
  case relu | fir => exact always_bind fun _ => always_bind fun _ => wide_emitI _ _ _ _
  case firClr =>
    exact always_ite (always_bind fun _ => wide_emitI _ _ _ _)
      (always_bind fun _ => wide_emitI _ _ _ _)
  case ecall | ebreak =>
    rintro _ ⟨⟩
    decide
  case illegal => exact always_error _

/-- So do the short forms. -/
theorem wide_emitInstruction (name : String) : Wide (emitInstruction c name) := by
  unfold emitInstruction
  split
  case h_1 | h_9 => exact wide_emitI _ _ _ _
  case h_2 => exact wide_emitMnemonic c .ecall
  case h_3 =>
    refine always_bind fun rd => always_bind fun v => always_ite (wide_emitI _ _ _ _) ?_
    intro words hWords
    obtain ⟨upper, hUpper, hWords⟩ := bind_ok hWords
    obtain ⟨lower, hLower, hWords⟩ := bind_ok hWords
    cases hWords
    have hHigh := wide_one (Encode.encodes_u _ _ _) upper hUpper
    have hLow := wide_emitI _ _ _ _ lower hLower
    intro w hIn
    exact (List.mem_append.mp hIn).elim (hHigh w) (hLow w)
  case h_4 | h_5 => exact always_bind fun _ => always_bind fun _ => wide_emitI _ _ _ _
  case h_6 =>
    exact always_bind fun _ => always_bind fun _ => wide_one (Encode.encodes_r _ _ _ _ _ _)
  case h_7 => exact always_bind fun _ => wide_one (Encode.encodes_j _ _)
  case h_8 => exact always_bind fun _ => wide_emitI _ _ _ _
  case h_10 | h_11 =>
    exact always_bind fun _ => always_bind fun _ => wide_one (Encode.encodes_b _ _ _ _)
  case h_12 =>
    split
    · exact always_bind fun _ => wide_one (Encode.encodes_r _ _ _ _ _ _)
    · split
      · exact wide_emitMnemonic c _
      · exact always_error _

end Wide

/-- The words of data are cut to 32 bits. -/
theorem wide_emitData (labels : Labels) (ops : List Token) : Wide (emitData labels ops) := by
  intro words hWords
  have hAll := mapM_ok hWords
  clear hWords
  induction hAll with
  | nil => exact fun _ => nofun
  | cons hFirst _ ih =>
      obtain ⟨v, -, rfl⟩ := map_ok (mapError_ok hFirst)
      exact List.forall_mem_cons.mpr ⟨u32_lt v, ih⟩

/-- So have all words that are emitted. -/
theorem emit_wide {labels : Labels} {p : Placed} {words : List Nat}
    (h : emit labels p = .ok words) : ∀ w ∈ words, w < 0x100000000 := by
  cases hPlaces : isPlacement p.name with
  | false =>
      have hEmitted := emitted_of_emit hPlaces h
      unfold emitted at hEmitted
      split at hEmitted
      · exact wide_emitData _ _ words hEmitted
      · exact wide_emitInstruction _ _ words hEmitted
  | true =>
      rw [replicate_of_emit hPlaces h]
      intro w hIn
      rw [List.eq_of_mem_replicate hIn]
      decide

/-- An error of the source is one of the assembler, unless there is no room. -/
theorem ofAssembly_of_cause {error : Error} (h : ∀ lack, error.cause ≠ .noRoom lack) :
    Failure.ofAssembly error = .assembly error := by
  unfold Failure.ofAssembly
  split
  · rename_i lack hLack
    exact absurd hLack (h lack)
  · rfl

/-- What a source is assembled to, or where it cannot be: an image of whole words, or an error on one of
its lines. Only a placement whose target is too far from the base address fails otherwise. -/
theorem assemble_located (source : List Char) (base : Int) :
    (∀ program, assemble source base = .ok program →
      4 ∣ (bytesOfWords program.words).length ∧ ∀ w ∈ program.words, w < 0x100000000) ∧
    ∀ error, assemble source base = .error error →
      1 ≤ error.line ∧ error.line ≤ (source.splitOn '\n').length ∧
      ((∀ target, Places source target → target < base + 4 * Room.maxWords) →
        Failure.ofAssembly error = .assembly error) := by
  constructor
  · intro program h
    obtain ⟨l, -, -, -, hEmitted⟩ := assemble_ok h
    refine ⟨⟨_, length_bytesOfWords _⟩, fun w hIn => ?_⟩
    obtain ⟨s, hStatement, hWord⟩ := List.mem_flatMap.mp hIn
    exact emit_wide (hEmitted s hStatement) w hWord
  · intro error h
    rcases assemble_error h with hLayout | ⟨l, hLayout, p, hIn, hFails⟩
    · obtain ⟨item, hIn, hError⟩ := layout_error hLayout
      rw [hError.line]
      obtain ⟨hFirst, hLast⟩ := items_line hIn
      exact ⟨hFirst, hLast, fun _ => ofAssembly_of_cause hError.room⟩
    · obtain ⟨hLine, hRoom⟩ := emit_line hFails
      have hReads := reads_of_layout hLayout
      obtain ⟨hFirst, hLast⟩ := items_line (hReads.among p hIn)
      rw [hLine]
      refine ⟨hFirst, hLast, fun hNear => ofAssembly_of_cause fun lack hCause => ?_⟩
      obtain ⟨hPlaces, hMany⟩ := hRoom lack hCause
      obtain ⟨target, hTarget, hSize⟩ := hReads.placement hIn hPlaces
      have hLess := hNear target hTarget
      unfold Room.maxWords at hMany hLess
      omega

/-- An immediate that is too large, on the second of two lines. -/
def farImmediate : List Char := "nop\naddi a0, a0, 2048".toList

/-- The second line of this source has an immediate that does not fit. -/
theorem items_farImmediate :
    items farImmediate = [.statement 1 "nop".toList, .statement 2 "addi a0, a0, 2048".toList] := by
  have hLines : farImmediate.splitOn '\n' = ["nop".toList, "addi a0, a0, 2048".toList] := by
    decide +kernel
  have hMeaning : meaning "nop".toList = "nop".toList ∧
      meaning "addi a0, a0, 2048".toList = "addi a0, a0, 2048".toList := by
    decide +kernel
  unfold items
  rw [hLines, itemsFrom, itemsFrom, itemsFrom, hMeaning.1, hMeaning.2,
    itemsOfText_of_no_colon 1 (by decide) (by decide),
    itemsOfText_of_no_colon _ (show ':' ∉ "addi a0, a0, 2048".toList by decide) (by decide)]
  rfl

/-- The error tells of the second line. -/
theorem assemble_located_of_farImmediate :
    ∃ error, assemble farImmediate 0 = .error error ∧ error.line = 2 ∧
      error.line ≤ (farImmediate.splitOn '\n').length ∧
      Failure.ofAssembly error = .assembly error := by
  have hSecond : (match assemble farImmediate 0 with
      | .error error => error.line
      | .ok _ => 0) = 2 := by
    unfold assemble
    rw [items_farImmediate]
    decide +kernel
  cases hResult : assemble farImmediate 0 with
  | ok program =>
      rw [hResult] at hSecond
      cases hSecond
  | error error =>
      rw [hResult] at hSecond
      obtain ⟨-, hLast, hAssembly⟩ := (assemble_located farImmediate 0).2 error hResult
      refine ⟨error, rfl, hSecond, hLast, hAssembly ?_⟩
      rintro target ⟨line, text, hIn, hPlaces, -⟩
      have hNone : isPlacement (nameAndRest text).1 = false := by
        rw [items_farImmediate] at hIn
        rcases List.mem_pair.mp hIn with hIs | hIs <;> cases hIs <;> decide +kernel
      rw [hNone] at hPlaces
      cases hPlaces

/-- A placement is a statement. -/
theorem items_orgZero : items ".org 0".toList = [.statement 1 ".org 0".toList] := by
  have hLines : ".org 0".toList.splitOn '\n' = [".org 0".toList] := by
    decide +kernel
  have hMeaning : meaning ".org 0".toList = ".org 0".toList := by
    decide +kernel
  unfold items
  rw [hLines, itemsFrom, itemsFrom, hMeaning,
    itemsOfText_of_no_colon 1 (by decide) (by decide)]
  rfl

/-- The words in front of the target have no index. -/
theorem assemble_orgZero :
    assemble ".org 0".toList (-0x400000000000000000) = .error ⟨1, .noRoom .index⟩ := by
  have hParts : nameAndRest ".org 0".toList = (".org".toList, "0".toList) := by
    decide +kernel
  have hSize : sizeAt 1 ".org".toList "0".toList (-0x400000000000000000) =
      .ok 0x400000000000000000 :=
    ok_of_toOption (by decide +kernel)
  obtain ⟨finish, hLayout⟩ :=
    layout_of_laid (.statement hParts hSize (.nil _)) List.nodup_nil
  unfold assemble
  rw [items_orgZero, hLayout]
  rfl

/-- That targets are small is not enough: from a base address far below zero, even address zero is too
far. -/
theorem not_assemble_located_of_low_base :
    ¬ ∀ source base, (∀ target, Places source target → target < 0x100000000) →
      ∀ error, assemble source base = .error error →
        Failure.ofAssembly error = .assembly error := by
  intro hAll
  have hNear : ∀ target, Places ".org 0".toList target → target < 0x100000000 := by
    rintro target ⟨line, text, hIn, -, hTarget⟩
    rw [items_orgZero] at hIn
    cases List.mem_singleton.mp hIn
    have hZero : Text.readInteger (Text.trim (nameAndRest ".org 0".toList).2) = .ok 0 := by
      decide +kernel
    cases hZero.symm.trans hTarget
    decide
  cases hAll _ _ hNear _ assemble_orgZero

end Assembly

end AccelPipe

import AccelPipe.Proofs.Assembly.Lines
import AccelPipe.Proofs.Assembly.Literal
import AccelPipe.Proofs.Assembly.Written
import AccelPipe.Proofs.Reference.Arithmetic

/-! Constants. A load of a constant becomes one word or two, which the first pass decides from the text
of the operand alone. Executed one after the other, they leave the constant in its register, as far as
a register has room for it: the lower part is signed, and the upper one makes up for its borrow, which
may carry beyond the word. -/
namespace AccelPipe

/-- Numbers with the same low bits are the same signed word. -/
theorem s32_of_u32 {v w : Int} (h : u32 v = u32 w) : s32 v = s32 w := by
  rw [← s32_u32 v, h, s32_u32]

/-- A sum of signed words depends on its terms as words only. -/
theorem s32_add_s32 (v w : Int) : s32 (s32 v + w) = s32 (v + w) := Int.bmod_add_bmod

/-- Sums are the same for numbers with the same low bits. -/
theorem u32_add_u32 (v w : Int) : u32 (u32 v + w) = u32 (v + w) := by
  unfold u32
  rw [Int.toNat_of_nonneg (by omega), Int.emod_add_emod]

namespace Registers

variable (r : Registers)

/-- Registers are the same if their contents are. -/
theorem eq_of_cells {r r' : Registers} (h : r.cells = r'.cells) : r = r' := by
  cases r
  cases r'
  cases h
  rfl

/-- What is written last stays. -/
theorem write_write (i : Nat) (v w : Int) : (r.write i v).write i w = r.write i w := by
  unfold write
  split
  · rfl
  · exact eq_of_cells (Vector.setIfInBounds_setIfInBounds ..)

/-- Only the low bits of a value are written. -/
theorem write_congr (i : Nat) {v w : Int} (h : s32 v = s32 w) : r.write i v = r.write i w := by
  have hSet : r.set i v = r.set i w := eq_of_cells (congrArg (r.cells.setIfInBounds i) h)
  unfold write
  rw [hSet]

/-- Adding to what has just been written is writing the sum. -/
theorem write_add {i : Nat} (hReg : i < 32) {high low v : Int} (h : s32 (high + low) = s32 v) :
    (r.write i high).write i ((r.write i high).read i + low) = r.write i v := by
  rw [write_write]
  by_cases hZero : i = 0
  · rw [hZero]
    rfl
  · refine r.write_congr i ?_
    rw [read_write_self r hReg high hZero, s32_add_s32, h]

theorem write_s32 (i : Nat) (v : Int) : r.write i (s32 v) = r.write i v :=
  r.write_congr i (isWord_s32 v)

end Registers

namespace Reference

/-- Executes words one after the other, the first one at an address, and each of them where the one
before goes on. -/
def executeAll (r : Reference) (pc : Int) : List Nat → Except Failure Int × Reference
  | [] => (.ok pc, r)
  | w :: words =>
    match r.execute (Instruction.decode w) pc with
    | (.ok e, r) => r.executeAll e.nextPc words
    | (.error f, r) => (.error f, r)

/-- A machine in which one register at most has changed, to a number as far as it has room. -/
structure Sets (r r' : Reference) (rd : Nat) (v : Int) : Prop where
  value : r'.registers.read rd = if rd = 0 then 0 else s32 v
  others : ∀ i, i ≠ rd → r'.registers.read i = r.registers.read i
  rest : r' = { r with registers := r'.registers }

/-- A write sets a register to the low bits of the value, and nothing else. -/
theorem sets_write (r : Reference) {rd : Nat} (hRd : rd < 32) (v : Int) :
    r.Sets { r with registers := r.registers.write rd v } rd v where
  value := by
    split
    · rename_i hZero
      rw [hZero]
      rfl
    · rename_i hSome
      exact r.registers.read_write_self hRd v hSome
  others := fun i hOther => r.registers.read_write_of_ne v hOther
  rest := rfl

section Arithmetic

variable {ins : Instruction} {value : Int} (r : Reference) (pc : Int)

/-- An arithmetic instruction writes its result, and execution goes on behind it. -/
theorem execute_arithmetic (hKind : ins.kind = .alu) (hWrites : ins.writesRd = true)
    (h : arithmeticResult ins (r.registers.read ins.rs1) (r.registers.read ins.rs2) pc = .ok value) :
    r.execute ins pc = (.ok ⟨some (s32 value), none, u32 (pc + 4)⟩,
      { r with registers := r.registers.write ins.rd value }) := by
  unfold execute effect
  dsimp only
  rw [hKind]
  dsimp only
  rw [h]
  change (Except.ok _, r.apply ins _) = _
  unfold apply writeBack
  dsimp only
  rw [if_pos hWrites, Registers.write_s32]

/-- The reference machine adds an immediate to a register. -/
theorem execute_addi (h : ins.mnemonic = .addi) :
    r.execute ins pc =
      (.ok ⟨some (s32 (r.registers.read ins.rs1 + ins.imm)), none, u32 (pc + 4)⟩,
        { r with registers := r.registers.write ins.rd (r.registers.read ins.rs1 + ins.imm) }) := by
  have hResult : arithmeticResult ins (r.registers.read ins.rs1) (r.registers.read ins.rs2) pc =
      .ok (r.registers.read ins.rs1 + ins.imm) := by
    unfold arithmeticResult
    rw [h]
    rfl
  exact r.execute_arithmetic pc (congrArg Mnemonic.kind h)
    (by unfold Instruction.writesRd; rw [h]) hResult

/-- It loads the upper part of a constant. -/
theorem execute_lui (h : ins.mnemonic = .lui) :
    r.execute ins pc = (.ok ⟨some (s32 ins.imm), none, u32 (pc + 4)⟩,
      { r with registers := r.registers.write ins.rd ins.imm }) := by
  have hResult : arithmeticResult ins (r.registers.read ins.rs1) (r.registers.read ins.rs2) pc =
      .ok ins.imm := by
    unfold arithmeticResult
    rw [h]
  exact r.execute_arithmetic pc (congrArg Mnemonic.kind h)
    (by unfold Instruction.writesRd; rw [h]) hResult

end Arithmetic

end Reference

namespace Assembly

open Instruction

/-- Words that leave a number in a register, in whatever state and wherever they are executed; and
execution goes on behind them. -/
def Leaves (words : List Nat) (rd : Nat) (v : Int) : Prop :=
  ∀ (r : Reference) (pc : Int), ∃ r',
    r.executeAll pc words = (.ok (u32 (pc + 4 * words.length)), r') ∧ r.Sets r' rd v

/-- Words that load a constant leave it in the register, whatever was there before, and everything
else as it was. -/
theorem LoadsInto.leaves {words : List Nat} {rd : Nat} {v : Int} (h : LoadsInto words rd v)
    (hRd : rd < 32) : Leaves words rd v := by
  intro r pc
  refine ⟨{ r with registers := r.registers.write rd v }, ?_, r.sets_write hRd v⟩
  rcases h with ⟨w, rfl, hAddi, hRs1, hDest, hImm⟩ |
    ⟨upper, lower, rfl, hLui, hDest, hAddi, hFrom, hSame, hSum⟩
  · unfold Reference.executeAll
    rw [r.execute_addi pc hAddi, hRs1, hDest, hImm, Registers.read_zero, Int.zero_add]
    rfl
  · unfold Reference.executeAll
    rw [r.execute_lui pc hLui, hDest]
    dsimp only
    unfold Reference.executeAll
    rw [Reference.execute_addi _ _ hAddi, hFrom, hSame]
    dsimp only
    rw [r.registers.write_add hRd (s32_of_u32 hSum), u32_add_u32]
    refine Prod.ext (congrArg (fun pc : Int => Except.ok (u32 pc : Int)) ?_) rfl
    dsimp only [List.length_cons, List.length_nil]
    omega

/-! A load of a number on a line of its own. -/

/-- The line that loads a number into a register. -/
def loadText (name number : Token) : List Char := "li ".toList ++ name ++ ", ".toList ++ number

/-- The text of a load has two operands. -/
theorem loadText_eq (name number : Token) :
    loadText name number = statementText "li".toList [name, number] := by
  unfold loadText statementText
  rw [if_neg (List.cons_ne_nil _ _), List.intercalate_cons_cons, List.intercalate_singleton,
    List.append_assoc, List.append_assoc, List.append_assoc]
  rfl

/-- The statement that such a line becomes. -/
def loadPlaced (name number : Token) (address : Int) : Placed where
  line := 1
  text := loadText name number
  name := "li".toList
  rest := [',', ' '].intercalate [name, number]
  address := address
  size := loadSize [name, number]

theorem plain_li : Plain "li".toList := ⟨nofun, List.all_eq_true.mp (by decide)⟩

theorem isPlacement_li : isPlacement "li".toList = false := by decide

theorem li_ne_word : "li".toList ≠ ".word".toList := by decide

/-- A constant load that has its two operands is refused only if its one word has no room for the
number. -/
theorem li_accepted {c : Context} {rd : Nat} {v : Int} (hReg : c.reg 0 = .ok rd)
    (hVal : c.val 1 = .ok v) (hShort : c.size = 4 → -2048 ≤ v ∧ v ≤ 2047) (hRd : rd < 32) :
    ∃ words, emitInstruction c "li" = .ok words := by
  have hDest : Encode.IsRegister rd := ⟨Int.natCast_nonneg rd, by exact_mod_cast hRd⟩
  rw [emitInstruction, hReg, ok_bind, hVal, ok_bind]
  split
  · rename_i hSize
    obtain ⟨hLow, hHigh⟩ := hShort hSize
    obtain ⟨w, hWord⟩ := (Encode.encodes_i ..).accepted
      ⟨hDest, ⟨le_refl 0, by decide⟩, ⟨hLow, Int.lt_add_one_of_le hHigh⟩⟩
    exact ⟨[w], one_ok hWord⟩
  · obtain ⟨upper, hUpper⟩ := (Encode.encodes_u ..).accepted hDest
    obtain ⟨lower, hLower⟩ := (Encode.encodes_i ..).accepted ⟨hDest, hDest, splitConstant_small v⟩
    dsimp only
    unfold emitI
    rw [one_ok hUpper, ok_bind, one_ok hLower]
    exact ⟨[upper] ++ [lower], rfl⟩

/-- A load takes the place that its constant needs. -/
theorem sizeAt_li (line : Nat) (rest : List Char) (pc : Int) :
    sizeAt line "li".toList rest pc = .ok (loadSize (operands rest)) := by
  rw [sizeAt_of_statement isPlacement_li]
  unfold statementSize
  rw [if_neg li_ne_word, if_pos rfl]

/-- A load of a number that can be read and that is no label is given words, and they load it. -/
theorem emit_load {p : Placed} (hName : p.name = "li".toList) {name number : Token}
    (hOps : operands p.rest = [name, number]) (hSize : p.size = loadSize [name, number]) {rd : Nat}
    (hReg : register name = .ok rd) {v : Int} (hRead : Text.readInteger (Text.trim number) = .ok v)
    {labels : Labels} (hOther : labels.lookup (Text.trim number) = none) :
    ∃ words, emit labels p = .ok words ∧ LoadsInto words rd v ∧
      4 * (words.length : Int) = p.size := by
  have hPlaces : isPlacement p.name = false := hName ▸ isPlacement_li
  have hZeroth : (Context.mk labels p.address p.size [name, number]).reg 0 = .ok rd :=
    examine_ok rfl hReg
  have hFirst : (Context.mk labels p.address p.size [name, number]).val 1 = .ok v :=
    examine_ok rfl (value_of_readInteger hOther hRead)
  obtain ⟨words, hWords⟩ := li_accepted hZeroth hFirst (fun hShort => by
    rw [show p.size = 4 from hShort, loadSize_of_readInteger name hRead] at hSize
    by_contra hLong
    rw [if_neg hLong] at hSize
    cases hSize) (register_lt hReg)
  have hEmitted : emitted labels p = .ok words := by
    unfold emitted
    rw [if_neg (hName ▸ li_ne_word), hOps, hName, String.ofList_toList]
    exact hWords
  have hSized : p.Sized := by
    refine ⟨fun _ => ?_, fun hPlaced => absurd (hPlaces.symm.trans hPlaced) nofun⟩
    unfold statementSize
    rw [if_neg (hName ▸ li_ne_word), if_pos hName, hOps, hSize]
  have hCount := hSized.count hPlaces hEmitted
  refine ⟨words, ?_, loadsInto_li hZeroth hFirst hWords, hCount⟩
  rw [emit_eq labels hPlaces, hEmitted]
  exact if_pos hCount

section Load

variable {name number : Token} (hName : Plain name) (hNumber : Plain number)
include hName hNumber

theorem plain_operands : ∀ token ∈ [name, number], Plain token :=
  List.forall_mem_cons.mpr ⟨hName, List.forall_mem_singleton.mpr hNumber⟩

/-- A load in a line of its own is laid out as the only statement. -/
theorem laid_load (base : Int) :
    Laid base (items (loadText name number)) [] [loadPlaced name number base] := by
  have hOps := plain_operands hName hNumber
  have hLine : '\n' ∉ loadText name number := by
    rw [loadText_eq]
    exact not_mem_statementText plain_li hOps rfl (by decide) (by decide)
  have hItems : items (loadText name number) = [.statement 1 (loadText name number)] := by
    unfold items
    rw [List.splitOn_eq_singleton hLine, itemsFrom, itemsFrom, List.append_nil, loadText_eq,
      meaning_statementText plain_li hOps, itemsOfText_statementText plain_li hOps]
  have hParts : nameAndRest (loadText name number) =
      ("li".toList, [',', ' '].intercalate [name, number]) := by
    rw [loadText_eq]
    exact nameAndRest_statementText plain_li hOps (by decide)
  have hRoom := sizeAt_li 1 ([',', ' '].intercalate [name, number]) base
  rw [operands_intercalate hOps] at hRoom
  rw [hItems]
  exact .statement hParts hRoom (.nil _)

/-- A number that can be read is loaded. -/
theorem assemble_load {rd : Nat} (hReg : register name = .ok rd) {v : Int}
    (hRead : Text.readInteger number = .ok v) (base : Int) :
    ∃ program, assemble (loadText name number) base = .ok program ∧
      Leaves program.words rd v := by
  have hOther : List.lookup (Text.trim number) ([] : Labels) = none := rfl
  obtain ⟨words, hEmit, hLoads, -⟩ := emit_load (p := loadPlaced name number base) rfl
    (operands_intercalate (plain_operands hName hNumber)) rfl hReg (by rwa [hNumber.trim]) hOther
  obtain ⟨program, hProgram, hAll⟩ := assemble_of_laid (laid_load hName hNumber base)
    List.nodup_nil (.cons hEmit .nil)
  refine ⟨program, hProgram, ?_⟩
  rw [hAll, List.flatten_singleton]
  exact hLoads.leaves (register_lt hReg)

/-- A number that cannot be read is refused, with the line of the load. -/
theorem assemble_load_refused {rd : Nat} (hReg : register name = .ok rd) {fault : Text.NumeralFault}
    (hRead : Text.readInteger number = .error fault) (base : Int) :
    ∃ cause, assemble (loadText name number) base = .error ⟨1, cause⟩ := by
  have hValue : ∃ refusal, value [] number = .error refusal := by
    unfold value
    rw [hNumber.trim]
    exact ⟨_, congrArg (Except.mapError _) hRead⟩
  obtain ⟨refusal, hValue⟩ := hValue
  have hEmitted : emitted [] (loadPlaced name number base) = .error (.refused refusal) := by
    unfold emitted loadPlaced
    rw [if_neg li_ne_word, operands_intercalate (plain_operands hName hNumber), String.ofList_toList,
      emitInstruction, show Context.reg _ 0 = .ok rd from examine_ok rfl hReg, ok_bind,
      show Context.val _ 1 = .error (.refused refusal) from examine_error rfl hValue]
    rfl
  obtain ⟨finish, hLayout⟩ := layout_of_laid (laid_load hName hNumber base) List.nodup_nil
  unfold assemble
  rw [hLayout, ok_bind, List.mapM_cons,
    emit_eq [] (p := loadPlaced name number base) isPlacement_li, hEmitted]
  exact ⟨_, rfl⟩

end Load

/-- Every constant load of an accepted program. -/
theorem leaves_of_assemble {source : List Char} {base : Int} {program : Program}
    (h : assemble source base = .ok program) {placed : Placed} {words : List Nat}
    (hIn : (placed, words) ∈ program.statements) (hName : placed.name = "li".toList) :
    ∃ name token rd v, (operands placed.rest)[0]? = some name ∧
      (operands placed.rest)[1]? = some token ∧ register name = .ok rd ∧
      value program.labels token = .ok v ∧ Leaves words rd v := by
  have hEmitted := emitInstruction_of_emit (hName ▸ isPlacement_li) (hName ▸ li_ne_word)
    (emit_of_assemble h hIn)
  rw [hName, String.ofList_toList] at hEmitted
  have hParts := hEmitted
  rw [emitInstruction] at hParts
  obtain ⟨rd, hReg, hParts⟩ := bind_ok hParts
  obtain ⟨v, hVal, -⟩ := bind_ok hParts
  obtain ⟨name, hZeroth, hName⟩ := ok_of_examine hReg
  obtain ⟨token, hFirst, hToken⟩ := ok_of_examine hVal
  exact ⟨name, token, rd, v, hZeroth, hFirst, hName, hToken,
    (loadsInto_li hReg hVal hEmitted).leaves (register_lt hName)⟩

/-- Constants are loaded. A register name and a number, in hexadecimal or in as many decimal digits as
are read, make a load that is accepted and leaves the number in the register; one with more decimal
digits is refused, with the line of the load. In every accepted program, a constant load leaves what
its operand stands for, be it a number or the address of a label. -/
theorem li_leaves_constant (base : Int) :
    (∀ name rd, Plain name → register name = .ok rd → ∀ v : Int,
      (∀ number, (number = (Text.hex v).toList ∨
          Text.isWritable v = true ∧ number = (Text.decimal v).toList) →
        ∃ program, assemble (loadText name number) base = .ok program ∧
          Leaves program.words rd v) ∧
      (Text.isWritable v = false →
        ∃ cause, assemble (loadText name (Text.decimal v).toList) base =
          .error ⟨1, cause⟩)) ∧
    ∀ source program, assemble source base = .ok program →
      ∀ placed words, (placed, words) ∈ program.statements → placed.name = "li".toList →
        ∃ name token rd v, (operands placed.rest)[0]? = some name ∧
          (operands placed.rest)[1]? = some token ∧ register name = .ok rd ∧
          value program.labels token = .ok v ∧
          (∀ address, program.labels.lookup (Text.trim token) = some address → v = address) ∧
          Leaves words rd v := by
  constructor
  · intro name rd hName hReg v
    constructor
    · rintro _ (rfl | ⟨hWritable, rfl⟩)
      · exact assemble_load hName (plain_hex v) hReg (Text.readInteger_hex v) base
      · exact assemble_load hName (plain_decimal v) hReg (Text.readInteger_decimal hWritable) base
    · exact fun hLong =>
        assemble_load_refused hName (plain_decimal v) hReg (Text.readInteger_decimal_long hLong) base
  · intro source program h placed words hIn hLoad
    obtain ⟨name, token, rd, v, hZeroth, hFirst, hReg, hValue, hLeaves⟩ :=
      leaves_of_assemble h hIn hLoad
    refine ⟨name, token, rd, v, hZeroth, hFirst, hReg, hValue, fun address hLabel => ?_, hLeaves⟩
    unfold value at hValue
    dsimp only at hValue
    rw [hLabel] at hValue
    exact (Except.ok.inj hValue).symm

/-- A load of the address behind it. -/
def loadEnd : List Char := "li ra, end\nend:".toList

/-- The constant of this load is a label behind it. -/
theorem items_loadEnd :
    items loadEnd = [.statement 1 "li ra, end".toList, .label 2 "end".toList] := by
  have hLines : loadEnd.splitOn '\n' = ["li ra, end".toList, "end:".toList] := by
    decide +kernel
  have hMeaning : meaning "li ra, end".toList = "li ra, end".toList ∧
      meaning "end:".toList = "end:".toList := by
    decide +kernel
  have hLabel : leadingLabel? "end:".toList = some ("end".toList, []) := by
    decide +kernel
  unfold items
  rw [hLines, itemsFrom, itemsFrom, itemsFrom, hMeaning.1, hMeaning.2,
    itemsOfText_of_no_colon 1 (by decide) (by decide), itemsOfText_label hLabel, itemsOfText_nil]
  rfl

/-- The label stands behind the two words of the load, so that the load is for eight. -/
theorem assemble_loadEnd :
    ∃ program placed, assemble loadEnd 0 = .ok program ∧ program.labels = [("end".toList, 8)] ∧
      program.statements = [(placed, [0xb7, 0x808093])] ∧ placed.name = "li".toList ∧
      operands placed.rest = ["ra".toList, "end".toList] := by
  have hLabels : (assemble loadEnd 0).toOption.map (·.labels) = some [("end".toList, 8)] := by
    unfold assemble
    rw [items_loadEnd]
    decide +kernel
  have hStatements : (assemble loadEnd 0).toOption.map (fun p => p.statements.map fun s =>
      (s.1.name, operands s.1.rest, s.2)) =
      some [("li".toList, ["ra".toList, "end".toList], [0xb7, 0x808093])] := by
    unfold assemble
    rw [items_loadEnd]
    decide +kernel
  obtain ⟨program, hProgram, hTable⟩ := Option.map_eq_some_iff.mp hLabels
  rw [hProgram, Option.map_some] at hStatements
  obtain ⟨⟨placed, words⟩, hOne, hStatement⟩ :=
    List.map_eq_singleton_iff.mp (Option.some.inj hStatements)
  obtain ⟨hName, hRest⟩ := Prod.mk.inj hStatement
  obtain ⟨hOps, rfl⟩ := Prod.mk.inj hRest
  exact ⟨program, placed, ok_of_toOption hProgram, hTable, hOne, hName, hOps⟩

/-- The lower part of the first number is below zero, and the upper one makes up for it. The second
number is the least that has one decimal digit too many. -/
theorem li_leaves_constant_of_borrow :
    (∃ program, assemble (loadText "x5".toList "0x7fffffff".toList) 0 = .ok program ∧
      Leaves program.words 5 0x7fffffff) ∧
    (∃ cause, assemble (loadText "x5".toList
      (Text.decimal (Nat.pow 10 Text.maxDecimalDigits : Nat)).toList) 0 = .error ⟨1, cause⟩) ∧
    ∃ program, assemble loadEnd 0 = .ok program ∧ program.words = [0xb7, 0x808093] ∧
      Leaves program.words 1 8 := by
  obtain ⟨hNumbers, hLabels⟩ := li_leaves_constant 0
  have hPlain : Plain "x5".toList := ⟨nofun, List.all_eq_true.mp (by decide)⟩
  have hReg : register "x5".toList = .ok 5 := ok_of_toOption (by decide +kernel)
  have hLong := Text.not_writable_of_le (Nat.le_refl (Nat.pow 10 Text.maxDecimalDigits))
  refine ⟨(hNumbers "x5".toList 5 hPlain hReg 0x7fffffff).1 _ (.inl (by decide +kernel)),
    (hNumbers "x5".toList 5 hPlain hReg _).2 hLong, ?_⟩
  obtain ⟨program, placed, hProgram, hTable, hOne, hName, hOps⟩ := assemble_loadEnd
  obtain ⟨name, token, rd, v, hZeroth, hFirst, hReg, -, hAddress, hLeaves⟩ :=
    hLabels loadEnd program hProgram placed _ (hOne ▸ List.mem_singleton_self _) hName
  rw [hOps] at hZeroth hFirst
  cases hZeroth
  cases hFirst
  have hRa : register "ra".toList = .ok 1 := ok_of_toOption (by decide +kernel)
  cases hRa.symm.trans hReg
  cases hAddress 8 (by rw [hTable]; decide +kernel)
  have hWords : program.words = [0xb7, 0x808093] := by
    unfold Program.words
    rw [hOne, List.flatMap_singleton]
  exact ⟨program, hProgram, hWords, hWords ▸ hLeaves⟩

/-- Decimal digits may be too many. -/
theorem not_li_leaves_constant_of_many_digits :
    ¬ ∀ base name rd, Plain name → register name = .ok rd → ∀ v : Int,
      ∃ program, assemble (loadText name (Text.decimal v).toList) base = .ok program ∧
        Leaves program.words rd v := by
  intro hAll
  obtain ⟨v, hLong⟩ : ∃ v : Nat, Nat.pow 10 Text.maxDecimalDigits ≤ v := ⟨_, Nat.le_refl _⟩
  have hName := plain_registerName 1
  have hReg := register_registerName (show 1 < 32 by decide)
  obtain ⟨program, hProgram, -⟩ := hAll 0 _ 1 hName hReg v
  obtain ⟨cause, hError⟩ := assemble_load_refused hName (plain_decimal _) hReg
    (Text.readInteger_decimal_long (Text.not_writable_of_le hLong)) 0
  cases hProgram.symm.trans hError

end Assembly

end AccelPipe

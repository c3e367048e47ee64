import AccelPipe.Proofs.Assembly.Operand
import AccelPipe.Proofs.Assembly.Statement
import AccelPipe.Proofs.Instruction.Untold

/-! A written instruction is encoded again. Each format finds in the operands the fields that the
decoder has taken out of the word. -/
namespace AccelPipe

namespace Text

/-- Immediates are short enough to be written. -/
theorem writable_signExtend (v : Int) {bits : Nat} (hPos : 0 < bits) (hSmall : bits ≤ 32) :
    isWritable (signExtend v bits) = true := by
  obtain ⟨hLow, hHigh⟩ := signExtend_range hPos v
  have hPower : 2 ^ (bits - 1) ≤ 2 ^ 31 := Nat.pow_le_pow_right (by decide) (by omega)
  apply writable_of_lt
  simp only [signedRange, Nat.pow_eq] at hLow hHigh
  omega

end Text

namespace Assembly

open Instruction

/-! Operands of a statement. -/

section Operands

variable {c : Context} {index r : Nat} {v : Int}

/-- The name of a register is read back, -/
theorem reg_ok (hOp : c.ops[index]? = some (registerName r).toList) (hReg : r < 32) :
    c.reg index = .ok r :=
  examine_ok hOp (register_registerName hReg)

/-- and so is a number, -/
theorem num_ok (hOp : c.ops[index]? = some (Text.decimal v).toList)
    (hWritable : Text.isWritable v = true) : c.num index = .ok v :=
  examine_ok hOp (number_ok (plain_decimal v) (Text.readInteger_decimal hWritable))

/-- an address, -/
theorem mem_ok (hOp : c.ops[index]? = some (memoryText v r).toList)
    (hWritable : Text.isWritable v = true) (hReg : r < 32) : c.mem index = .ok (v, r) :=
  examine_ok hOp (memory_memoryText hWritable hReg)

variable (hLabels : c.labels = [])
include hLabels

/-- a value, -/
theorem val_ok (hOp : c.ops[index]? = some (Text.decimal v).toList)
    (hWritable : Text.isWritable v = true) : c.val index = .ok v := by
  refine examine_ok hOp ?_
  rw [hLabels]
  exact value_ok (plain_decimal v) (Text.readInteger_decimal hWritable)

/-- a value in hexadecimal, -/
theorem val_hex_ok {n : Nat} (hOp : c.ops[index]? = some (Text.hex n).toList) :
    c.val index = .ok n := by
  refine examine_ok hOp ?_
  rw [hLabels]
  exact value_ok (plain_zeroFilled 0 n) (Text.readInteger_zeroFilled 0 n)

/-- and a distance. -/
theorem dist_ok (hOp : c.ops[index]? = some (Text.signedDecimal v).toList)
    (hWritable : Text.isWritable v = true) : c.dist index = .ok v := by
  refine examine_ok hOp ?_
  rw [hLabels]
  exact distance_ok (plain_signedDecimal v) (Text.readInteger_signedDecimal hWritable) c.pc

end Operands

theorem one_ok {word : Except Refusal Nat} {w : Nat} (h : word = .ok w) : one word = .ok [w] := by
  rw [h]
  rfl

/-! The operands of an instruction, one form after the other. -/

section Forms

variable {w : Nat} {m : Mnemonic} {c : Context}

theorem rd_lt (w : Nat) : (fieldsOf w).rd < 32 := Nat.mod_lt _ (by decide)

theorem rs1_lt (w : Nat) : (fieldsOf w).rs1 < 32 := Nat.mod_lt _ (by decide)

theorem rs2_lt (w : Nat) : (fieldsOf w).rs2 < 32 := Nat.mod_lt _ (by decide)

/-- The operands of a statement are these texts. -/
def Context.Has (c : Context) (texts : List String) : Prop := c.ops = texts.map String.toList

/-- Operands that have been given are there. -/
theorem Context.Has.op {texts : List String} {text : String} {index : Nat} (h : c.Has texts)
    (hText : texts[index]? = some text) : c.ops[index]? = some text.toList := by
  rw [show c.ops = _ from h, List.getElem?_map, hText]
  rfl

variable (hWord : w < 0x100000000) (h : (fieldsOf w).Spells m)
include hWord h

/-- Three registers. -/
theorem emit_registers (hFunct3 : (fieldsOf w).funct3 = m.funct3)
    (hFunct7 : (fieldsOf w).funct7 = m.funct7)
    (hForm : emitMnemonic c m = do
      let rd ← c.reg 0
      let rs1 ← c.reg 1
      let rs2 ← c.reg 2
      one (Encode.r m.opcode rd m.funct3 rs1 rs2 m.funct7))
    (hOps : c.Has [registerName (fieldsOf w).rd, registerName (fieldsOf w).rs1,
      registerName (fieldsOf w).rs2]) :
    emitMnemonic c m = .ok [w] := by
  have hTop : (fieldsOf w).funct7 = w / 0x2000000 := Nat.mod_eq_of_lt (by omega)
  rw [hForm, reg_ok (hOps.op rfl) (rd_lt w), ok_bind, reg_ok (hOps.op rfl) (rs1_lt w), ok_bind,
    reg_ok (hOps.op rfl) (rs2_lt w), ok_bind, ← h.opcode, ← hFunct3, ← hFunct7, hTop]
  exact one_ok (Encode.r_fields hWord)

/-- Two registers and an immediate. -/
theorem emit_immediate (hFunct3 : (fieldsOf w).funct3 = m.funct3) (hLabels : c.labels = [])
    (hForm : emitMnemonic c m = do
      let rd ← c.reg 0
      let rs1 ← c.reg 1
      let imm ← c.val 2
      emitI m rd rs1 imm)
    (hOps : c.Has [registerName (fieldsOf w).rd, registerName (fieldsOf w).rs1,
      Text.decimal (Immediate.i w)]) :
    emitMnemonic c m = .ok [w] := by
  have hImm : Text.isWritable (Immediate.i w) = true :=
    Text.writable_signExtend _ (by decide) (by decide)
  rw [hForm, reg_ok (hOps.op rfl) (rd_lt w), ok_bind, reg_ok (hOps.op rfl) (rs1_lt w), ok_bind,
    val_ok hLabels (hOps.op rfl) hImm, ok_bind]
  unfold emitI
  rw [← h.opcode, ← hFunct3]
  exact one_ok (Encode.i_fields hWord)

/-- Two registers and an amount. -/
theorem emit_shift (hFunct3 : (fieldsOf w).funct3 = m.funct3)
    (hFunct7 : (fieldsOf w).funct7 = m.funct7)
    (hForm : emitMnemonic c m = do
      let amount ← c.num 2
      if 0 ≤ amount ∧ amount ≤ 31 then
        let rd ← c.reg 0
        let rs1 ← c.reg 1
        one (Encode.r m.opcode rd m.funct3 rs1 amount m.funct7)
      else throw (.refused (.shiftAmount amount)))
    (hOps : c.Has [registerName (fieldsOf w).rd, registerName (fieldsOf w).rs1,
      Text.decimal (fieldsOf w).rs2]) :
    emitMnemonic c m = .ok [w] := by
  have hTop : (fieldsOf w).funct7 = w / 0x2000000 := Nat.mod_eq_of_lt (by omega)
  have hAmount := rs2_lt w
  rw [hForm, num_ok (hOps.op rfl) (Text.writable_of_lt (by omega)), ok_bind,
    if_pos ⟨by omega, by omega⟩, reg_ok (hOps.op rfl) (rd_lt w), ok_bind,
    reg_ok (hOps.op rfl) (rs1_lt w), ok_bind, ← h.opcode, ← hFunct3, ← hFunct7, hTop]
  exact one_ok (Encode.r_fields hWord)

/-- A register and an upper immediate. -/
theorem emit_upper (hLabels : c.labels = [])
    (hForm : emitMnemonic c m = do
      let imm ← c.val 1
      if 0 ≤ imm ∧ imm ≤ 0xfffff then
        let rd ← c.reg 0
        one (Encode.u m.opcode rd imm)
      else throw (.refused (.upperImmediate m.name imm)))
    (hOps : c.Has [registerName (fieldsOf w).rd, Text.hex (u32 (Immediate.u w) / 0x1000 : Nat)]) :
    emitMnemonic c m = .ok [w] := by
  have hImm : u32 (Immediate.u w) / 0x1000 = w / 0x1000 := by
    have hBits : bitField w 12 20 * 0x1000 = (w / 0x1000 * 0x1000 : Nat) := by
      rw [bitField_natCast, Nat.mod_eq_of_lt (show w / 2 ^ 12 < 2 ^ 20 by omega)]
      rfl
    unfold Immediate.u
    rw [u32_s32, hBits, u32_natCast _ (by omega)]
    omega
  rw [hImm] at hOps
  rw [hForm, val_hex_ok hLabels (hOps.op rfl), ok_bind, if_pos ⟨by omega, by omega⟩,
    reg_ok (hOps.op rfl) (rd_lt w), ok_bind, ← h.opcode]
  exact one_ok (Encode.u_fields hWord)

/-- A register and a memory operand. -/
theorem emit_memory (hFunct3 : (fieldsOf w).funct3 = m.funct3)
    (hForm : emitMnemonic c m = do
      let (imm, rs1) ← c.mem 1
      let rd ← c.reg 0
      emitI m rd rs1 imm)
    (hOps : c.Has [registerName (fieldsOf w).rd,
      memoryText (Immediate.i w) (fieldsOf w).rs1]) :
    emitMnemonic c m = .ok [w] := by
  have hImm : Text.isWritable (Immediate.i w) = true :=
    Text.writable_signExtend _ (by decide) (by decide)
  rw [hForm, mem_ok (hOps.op rfl) hImm (rs1_lt w), ok_bind]
  dsimp only
  rw [reg_ok (hOps.op rfl) (rd_lt w), ok_bind]
  unfold emitI
  rw [← h.opcode, ← hFunct3]
  exact one_ok (Encode.i_fields hWord)

/-- Two registers and a distance. -/
theorem emit_branch (hFunct3 : (fieldsOf w).funct3 = m.funct3) (hOpcode : m.opcode = Opcode.branch)
    (hLabels : c.labels = [])
    (hForm : emitMnemonic c m = do
      let rs1 ← c.reg 0
      let rs2 ← c.reg 1
      let offset ← c.dist 2
      one (Encode.b m.funct3 rs1 rs2 offset))
    (hOps : c.Has [registerName (fieldsOf w).rs1, registerName (fieldsOf w).rs2,
      Text.signedDecimal (Immediate.b w)]) :
    emitMnemonic c m = .ok [w] := by
  have hImm : Text.isWritable (Immediate.b w) = true :=
    Text.writable_signExtend _ (by decide) (by decide)
  rw [hForm, reg_ok (hOps.op rfl) (rs1_lt w), ok_bind, reg_ok (hOps.op rfl) (rs2_lt w), ok_bind,
    dist_ok hLabels (hOps.op rfl) hImm, ok_bind, ← hFunct3]
  exact one_ok (Encode.b_fields hWord (h.opcode.trans hOpcode))

/-- A register that is stored, and a memory operand. -/
theorem emit_store (hFunct3 : (fieldsOf w).funct3 = m.funct3)
    (hForm : emitMnemonic c m = do
      let (imm, rs1) ← c.mem 1
      let rs2 ← c.reg 0
      one (Encode.s m.opcode m.funct3 rs1 rs2 imm))
    (hOps : c.Has [registerName (fieldsOf w).rs2,
      memoryText (Immediate.s w) (fieldsOf w).rs1]) :
    emitMnemonic c m = .ok [w] := by
  have hImm : Text.isWritable (Immediate.s w) = true :=
    Text.writable_signExtend _ (by decide) (by decide)
  rw [hForm, mem_ok (hOps.op rfl) hImm (rs1_lt w), ok_bind]
  dsimp only
  rw [reg_ok (hOps.op rfl) (rs2_lt w), ok_bind, ← h.opcode, ← hFunct3]
  exact one_ok (Encode.s_fields hWord)

omit h in
/-- A register and a distance. -/
theorem emit_jump (h : (fieldsOf w).Spells .jal) (hLabels : c.labels = [])
    (hOps : c.Has [registerName (fieldsOf w).rd, Text.signedDecimal (Immediate.j w)]) :
    emitMnemonic c .jal = .ok [w] := by
  have hImm : Text.isWritable (Immediate.j w) = true :=
    Text.writable_signExtend _ (by decide) (by decide)
  have hTwo : c.ops.length = 2 := congrArg List.length hOps
  unfold emitMnemonic
  dsimp only
  rw [if_neg (by omega), reg_ok (hOps.op rfl) (rd_lt w), ok_bind,
    dist_ok hLabels (hOps.op rfl) hImm, ok_bind]
  exact one_ok (Encode.j_fields hWord h.opcode)

/-- A system instruction has no field but the one that tells it. -/
theorem r_of_system (hKind : m.kind = .system) :
    Encode.r Opcode.system 0 0 0 (if m = .ebreak then 1 else 0 : Nat) 0 = .ok w := by
  obtain ⟨hRs1, hRd, hFunct7, hRs2⟩ := h.system hKind
  have hOpcode : (fieldsOf w).opcode = Opcode.system := by
    refine h.opcode.trans ?_
    cases m <;> first | rfl | cases hKind
  have hFunct3 : (fieldsOf w).funct3 = 0 := by
    cases m <;> first | cases hKind; done | exact h.funct3 nofun nofun
  have hTop : w / 0x2000000 = 0 := by
    have hKept : (fieldsOf w).funct7 = w / 0x2000000 := Nat.mod_eq_of_lt (by omega)
    exact hKept.symm.trans hFunct7
  have hFields := Encode.r_fields hWord
  rw [show w % 0x80 = _ from hOpcode, show w / 0x80 % 0x20 = 0 from hRd,
    show w / 0x1000 % 8 = 0 from hFunct3, show w / 0x8000 % 0x20 = 0 from hRs1,
    show w / 0x100000 % 0x20 = _ from hRs2, hTop] at hFields
  exact hFields

/-- One or two registers, and no immediate. -/
theorem encode_without_immediate (hFunct3 : (fieldsOf w).funct3 = m.funct3)
    (hImm : w / 0x100000 = 0) :
    Encode.i m.opcode (fieldsOf w).rd m.funct3 (fieldsOf w).rs1 0 = .ok w := by
  have hZero : Immediate.i w = 0 := by
    have hTop : (w : Int) / 0x100000 = (w / 0x100000 : Nat) := rfl
    unfold Immediate.i
    rw [hTop, hImm]
    rfl
  rw [← h.opcode, ← hFunct3, ← hZero]
  exact Encode.i_fields hWord

/-- An operation with one source is written without the other, which has to be zero. -/
theorem emit_two (hFunct3 : (fieldsOf w).funct3 = m.funct3) (hImm : w / 0x100000 = 0)
    (hForm : emitMnemonic c m = do
      let rd ← c.reg 0
      let rs1 ← c.reg 1
      emitI m rd rs1 0)
    (hOps : c.Has [registerName (fieldsOf w).rd, registerName (fieldsOf w).rs1]) :
    emitMnemonic c m = .ok [w] := by
  rw [hForm, reg_ok (hOps.op rfl) (rd_lt w), ok_bind, reg_ok (hOps.op rfl) (rs1_lt w), ok_bind]
  exact one_ok (encode_without_immediate hWord h hFunct3 hImm)

omit h in
/-- Clearing a filter is written with its register alone. -/
theorem emit_firClr (h : (fieldsOf w).Spells .firClr) (hFirst : w / 0x8000 = 0)
    (hOps : c.Has [registerName (fieldsOf w).rd]) : emitMnemonic c .firClr = .ok [w] := by
  have hSome : c.ops.isEmpty = false := by
    rw [show c.ops = _ from hOps]
    rfl
  have hRs1 : (fieldsOf w).rs1 = 0 := by
    change w / 0x8000 % 0x20 = 0
    rw [hFirst]
  have hWhole := encode_without_immediate hWord h (h.funct3 nofun nofun) (by omega)
  rw [hRs1] at hWhole
  unfold emitMnemonic
  dsimp only
  rw [hSome, if_neg Bool.false_ne_true, reg_ok (hOps.op rfl) (rd_lt w), ok_bind]
  exact one_ok hWhole

/-- A sliding instruction names its destination only. -/
theorem emit_sliding {name : String} (hKind : m.kind = .pool) (hSlides : (fieldsOf w).slides = true)
    (hRegisters : (fieldsOf w).rs1 = 0 ∧ (fieldsOf w).rs2 = 0)
    (hForm : emitInstruction c name = do
      let rd ← c.reg 0
      one (Encode.r m.opcode rd m.funct3 0 0 1))
    (hOps : c.Has [registerName (fieldsOf w).rd]) :
    emitInstruction c name = .ok [w] := by
  have hFunct3 : (fieldsOf w).funct3 = m.funct3 := by
    cases m <;> first | cases hKind; done | exact h.funct3 nofun nofun
  have hOne : w / 0x2000000 = 1 := by
    have hTop : (fieldsOf w).funct7 = w / 0x2000000 := Nat.mod_eq_of_lt (by omega)
    have hRange := h.slides hKind
    have hOdd : (fieldsOf w).funct7 % 2 = 1 := eq_of_beq hSlides
    omega
  have hFields := Encode.r_fields hWord
  rw [show w / 0x8000 % 0x20 = 0 from hRegisters.1, show w / 0x100000 % 0x20 = 0 from hRegisters.2,
    hOne] at hFields
  rw [hForm, reg_ok (hOps.op rfl) (rd_lt w), ok_bind, ← h.opcode, ← hFunct3]
  exact one_ok hFields

end Forms

/-- The words of an instruction under its full name. -/
theorem emitMnemonic_written {w : Nat} {m : Mnemonic} {c : Context} (hFull : FullyTold m w)
    (hSlides : m.kind = .pool → (fieldsOf w).slides = false) (hLabels : c.labels = [])
    (hOps : c.Has ((fieldsOf w).withMnemonic m).operandTexts) :
    emitMnemonic c m = .ok [w] := by
  have hWord := hFull.word
  have h := hFull.spells
  cases m <;> dsimp only [withMnemonic, Mnemonic.format, operandTexts] at hOps
  case illegal => exact absurd rfl h.legal
  case add | sub | sll | slt | sltu | xor | srl | sra | or | and | mac | macW | maca | macz |
      conv2d =>
    exact emit_registers hWord h (h.funct3 nofun nofun) (h.funct7 (.inl rfl) nofun) rfl hOps
  case pool | poolMax | poolAvg =>
    have hFunct7 : (fieldsOf w).funct7 = 0 := by
      have hOne := h.slides rfl
      have hEven := hSlides rfl
      unfold slides at hEven
      have hNot : (fieldsOf w).funct7 % 2 ≠ 1 := by simpa using hEven
      omega
    dsimp only [slides] at hOps
    rw [hFunct7] at hOps
    exact emit_registers hWord h (h.funct3 nofun nofun) hFunct7 rfl hOps
  case addi | slti | sltiu | xori | ori | andi | reluB =>
    exact emit_immediate hWord h (h.funct3 nofun nofun) hLabels rfl hOps
  case slli | srli | srai =>
    exact emit_shift hWord h (h.funct3 nofun nofun) (h.funct7 (.inr rfl) nofun) rfl hOps
  case lui | auipc => exact emit_upper hWord h hLabels rfl hOps
  case lw | conv2dLd | firLd => exact emit_memory hWord h (h.funct3 nofun nofun) rfl hOps
  case jalr =>
    have hTwo : c.ops.length = 2 := congrArg List.length hOps
    refine emit_memory hWord h (h.funct3 nofun nofun) ?_ hOps
    unfold emitMnemonic
    dsimp only
    rw [if_neg (by omega), if_pos hTwo]
  case sw => exact emit_store hWord h (h.funct3 nofun nofun) rfl hOps
  case beq | bne | blt | bge | bltu | bgeu =>
    exact emit_branch hWord h (h.funct3 nofun nofun) rfl hLabels rfl hOps
  case jal => exact emit_jump hWord h hLabels hOps
  case relu =>
    exact emit_two hWord h (h.funct3 nofun nofun) (hFull.immediate (.inl rfl)) rfl hOps
  case fir =>
    exact emit_two hWord h (h.funct3 nofun nofun) (hFull.immediate (.inr rfl)) rfl hOps
  case firClr => exact emit_firClr hWord h (hFull.first rfl) hOps
  case ecall | ebreak =>
    obtain rfl := Except.ok.inj (r_of_system hWord h rfl)
    rfl

/-- The suffix of a window that slides is recognised. -/
theorem slidingBase?_sliding {m : Mnemonic} (hKind : m.kind = .pool) :
    slidingBase? (m.name ++ ".n") = some m := by
  cases m <;> first | cases hKind; done | decide +kernel

/-- A window that slides is emitted with its register alone. -/
theorem emitInstruction_sliding (c : Context) {m : Mnemonic} {name : String}
    (h : slidingBase? name = some m) :
    emitInstruction c name = (do
      let rd ← c.reg 0
      one (Encode.r m.opcode rd m.funct3 0 0 1)) := by
  unfold emitInstruction
  split
  case h_12 => rw [h]
  all_goals cases h

/-- An instruction is shown by its mnemonic, with a suffix if its window slides. -/
theorem nameText_withMnemonic {f : Instruction} {m : Mnemonic} :
    (f.withMnemonic m).nameText =
      if m.kind = .pool ∧ f.slides = true then m.name ++ ".n" else m.name := by
  cases m
  case pool | poolMax | poolAvg =>
    change (if f.slides = true then _ else _) = _
    simp only [Mnemonic.kind, true_and]
    rfl
  all_goals rfl

/-- A written instruction is the word that it has been. -/
theorem emitInstruction_written {w : Nat} {m : Mnemonic} {c : Context} (hFull : FullyTold m w)
    (hLabels : c.labels = []) (hOps : c.Has ((fieldsOf w).withMnemonic m).operandTexts) :
    emitInstruction c ((fieldsOf w).withMnemonic m).nameText = .ok [w] := by
  rw [nameText_withMnemonic]
  by_cases hSliding : m.kind = .pool ∧ (fieldsOf w).slides = true
  · obtain ⟨hKind, hSlides⟩ := hSliding
    have hOne : ((fieldsOf w).withMnemonic m).operandTexts = [registerName (fieldsOf w).rd] := by
      cases m <;> first | cases hKind; done | exact if_pos hSlides
    rw [hOne] at hOps
    rw [if_pos ⟨hKind, hSlides⟩]
    exact emit_sliding hFull.word hFull.spells hKind hSlides (hFull.registers hKind hSlides)
      (emitInstruction_sliding c (slidingBase?_sliding hKind)) hOps
  · rw [if_neg hSliding, emitInstruction_name c hFull.spells.legal]
    refine emitMnemonic_written hFull (fun hKind => ?_) hLabels hOps
    exact Bool.eq_false_iff.mpr fun hSlides => hSliding ⟨hKind, hSlides⟩

end Assembly

end AccelPipe

import AccelPipe.Proofs.Instruction.Composed
import AccelPipe.Proofs.Reference.Arithmetic

/-! Arithmetic and branches as RV32I defines them: on vectors of 32 bits, and from nothing but the
bits of the instruction word. The arithmetic and the branch unit compute on integers of any size
and come to the same, and so does the reference machine. -/
namespace AccelPipe

namespace Rv32i

section Fields

variable (w : BitVec 32)

def opcode : Nat := (w.extractLsb' 0 7).toNat

def funct3 : Nat := (w.extractLsb' 12 3).toNat

def funct7 : Nat := (w.extractLsb' 25 7).toNat

/-- The distance of a shift by a constant. -/
def shamt : BitVec 5 := w.extractLsb' 20 5

def immI : BitVec 32 := (w.extractLsb' 20 12).signExtend 32

def immB : BitVec 32 :=
  (w.extractLsb' 31 1 ++ w.extractLsb' 7 1 ++ w.extractLsb' 25 6 ++ w.extractLsb' 8 4 ++
    0#1).signExtend 32

def immU : BitVec 32 := w.extractLsb' 12 20 ++ 0#12

def immJ : BitVec 32 :=
  (w.extractLsb' 31 1 ++ w.extractLsb' 12 8 ++ w.extractLsb' 20 1 ++ w.extractLsb' 21 10 ++
    0#1).signExtend 32

end Fields

/-- The distance by which a vector makes another one shift: its low five bits. -/
def distance (y : BitVec 32) : Nat := (y.extractLsb' 0 5).toNat

/-- The operation of two function fields. -/
def operation? (f3 f7 : Nat) (x y : BitVec 32) : Option (BitVec 32) :=
  match f3, f7 with
  | 0b000, 0b0000000 => some (x + y)
  | 0b000, 0b0100000 => some (x - y)
  | 0b001, 0b0000000 => some (x <<< distance y)
  | 0b010, 0b0000000 => some (if x.slt y then 1 else 0)
  | 0b011, 0b0000000 => some (if x.ult y then 1 else 0)
  | 0b100, 0b0000000 => some (x ^^^ y)
  | 0b101, 0b0000000 => some (x >>> distance y)
  | 0b101, 0b0100000 => some (x.sshiftRight (distance y))
  | 0b110, 0b0000000 => some (x ||| y)
  | 0b111, 0b0000000 => some (x &&& y)
  | _, _ => none

/-- The result of an arithmetic instruction on two registers, if the word is one. -/
def arithmetic? (w x y pc : BitVec 32) : Option (BitVec 32) :=
  match opcode w with
  | 0b0110011 => operation? (funct3 w) (funct7 w) x y
  | 0b0010011 =>
    if funct3 w = 0b001 ∨ funct3 w = 0b101 then
      operation? (funct3 w) (funct7 w) x ((shamt w).setWidth 32)
    else operation? (funct3 w) 0 x (immI w)
  | 0b0110111 => some (immU w)
  | 0b0010111 => some (pc + immU w)
  | _ => none

/-- The condition of a function field. -/
def condition? (f3 : Nat) (x y : BitVec 32) : Option Bool :=
  match f3 with
  | 0b000 => some (x == y)
  | 0b001 => some (x != y)
  | 0b100 => some (x.slt y)
  | 0b101 => some (y.sle x)
  | 0b110 => some (x.ult y)
  | 0b111 => some (y.ule x)
  | _ => none

/-- Whether a branch or a jump is taken, and its target, if the word is one. -/
def branch? (w x y pc : BitVec 32) : Option (Bool × BitVec 32) :=
  match opcode w, funct3 w with
  | 0b1100011, f3 => (condition? f3 x y).map fun taken => (taken, pc + immB w)
  | 0b1101111, _ => some (true, pc + immJ w)
  | 0b1100111, 0b000 => some (true, (x + immI w) &&& ~~~1#32)
  | _, _ => none

/-! The fields of the vector of a number are those that the decoder takes out of the number. -/

section Decoder

variable (word : Int)

/-- A field of a bit vector is a field of the word. -/
theorem toNat_extract32 (low width : Nat) :
    ((BitVec.ofInt 32 word).extractLsb' low width).toNat = u32 word / 2 ^ low % 2 ^ width := by
  rw [BitVec.extractLsb'_toNat, toNat_ofInt32, Nat.shiftRight_eq_div_pow]

/-- The opcode of the specification is the field that decoding reads. -/
theorem opcode_ofInt : opcode (BitVec.ofInt 32 word) = (Instruction.fieldsOf (u32 word)).opcode := by
  unfold opcode
  rw [toNat_extract32, Nat.pow_zero, Nat.div_one]
  rfl

theorem funct3_ofInt : funct3 (BitVec.ofInt 32 word) = (Instruction.fieldsOf (u32 word)).funct3 :=
  toNat_extract32 word 12 3

theorem funct7_ofInt : funct7 (BitVec.ofInt 32 word) = (Instruction.fieldsOf (u32 word)).funct7 :=
  toNat_extract32 word 25 7

theorem toNat_shamt : (shamt (BitVec.ofInt 32 word)).toNat = (Instruction.fieldsOf (u32 word)).rs2 :=
  toNat_extract32 word 20 5

/-- Vectors in a row make up one number. -/
theorem toNat_append_eq {m n : Nat} (x : BitVec m) (y : BitVec n) :
    (x ++ y).toNat = x.toNat * 2 ^ n + y.toNat := by
  rw [BitVec.toNat_append, ← Nat.shiftLeft_add_eq_or_of_lt y.isLt, Nat.shiftLeft_eq]

/-- A field with its sign is the number of its low bits with their sign. -/
theorem ofInt_signExtend {width : Nat} (hWidth : width ≤ 32) {x : BitVec width} {v : Int}
    (h : (x.toNat : Int) = v % (2 ^ width : Nat)) :
    BitVec.ofInt 32 (signExtend v width) = x.signExtend 32 := by
  have hSame : signExtend v width = (x.signExtend 32).toInt := by
    rw [BitVec.toInt_signExtend_of_le hWidth, BitVec.toInt_eq_toNat_bmod, h]
    exact (Int.emod_bmod v (2 ^ width)).symm
  rw [hSame, BitVec.ofInt_toInt]

/-- The immediates of the specification are those that decoding reads. -/
theorem ofInt_i : BitVec.ofInt 32 (Immediate.i (u32 word)) = immI (BitVec.ofInt 32 word) := by
  refine ofInt_signExtend (by decide) ?_
  rw [toNat_extract32]
  rfl

theorem ofInt_b : BitVec.ofInt 32 (Immediate.b (u32 word)) = immB (BitVec.ofInt 32 word) := by
  refine ofInt_signExtend (by decide) ?_
  simp only [toNat_append_eq, toNat_extract32, bitField_natCast]
  norm_num
  omega

theorem ofInt_j : BitVec.ofInt 32 (Immediate.j (u32 word)) = immJ (BitVec.ofInt 32 word) := by
  refine ofInt_signExtend (by decide) ?_
  simp only [toNat_append_eq, toNat_extract32, bitField_natCast]
  norm_num
  omega

theorem ofInt_u : BitVec.ofInt 32 (Immediate.u (u32 word)) = immU (BitVec.ofInt 32 word) := by
  refine BitVec.eq_of_toInt_eq ?_
  rw [toInt_ofInt32, toInt_eq_s32_toNat, immU, toNat_append_eq, toNat_extract32]
  unfold Immediate.u
  rw [bitField_natCast, show s32 (s32 _) = s32 _ from isWord_s32 _]
  norm_num

theorem ofInt_shamt :
    BitVec.ofInt 32 (Instruction.fieldsOf (u32 word)).rs2 =
      (shamt (BitVec.ofInt 32 word)).setWidth 32 := by
  rw [← toNat_shamt, BitVec.ofInt_natCast, BitVec.ofNat_toNat]

/-- A shift goes by the low five bits. -/
theorem distance_eq (y : BitVec 32) : distance y = y.toNat % 32 := by
  unfold distance
  rw [BitVec.extractLsb'_toNat]
  rfl

end Decoder

end Rv32i

namespace Instruction

/-- A legal word has the opcode and the function fields of its mnemonic among its bits. -/
structure Told (word : Int) (m : Mnemonic) : Prop where
  decode : decode word = (fieldsOf (u32 word)).withMnemonic m
  opcode : Rv32i.opcode (.ofInt 32 word) = m.opcode
  funct3 : m.format ≠ .u → m.format ≠ .j → Rv32i.funct3 (.ofInt 32 word) = m.funct3
  funct7 : m.format = .r ∨ m.shifts = true → m.kind ≠ .pool →
    Rv32i.funct7 (.ofInt 32 word) = m.funct7

variable {word : Int} {m : Mnemonic}

/-- A word that is decoded tells of its mnemonic. -/
theorem told_of_kind (hKind : (decode word).kind ≠ .illegal) : Told word (decode word).mnemonic := by
  obtain ⟨m, hSpelled, hLegal⟩ := (decode_cases word).resolve_left fun hIllegal => by
    rw [hIllegal] at hKind
    exact hKind rfl
  have hSpells := spells_of_mnemonic? hSpelled
  rw [hLegal, mnemonic_withMnemonic]
  refine ⟨hLegal, ?_, ?_, ?_⟩
  · rw [Rv32i.opcode_ofInt]
    exact hSpells.opcode
  · rw [Rv32i.funct3_ofInt]
    exact hSpells.funct3
  · rw [Rv32i.funct7_ofInt]
    exact hSpells.funct7

namespace Told

/-- A decoded immediate is that of the specification. -/
theorem imm_i (h : Told word m) (hFormat : m.format = .i) (hShifts : m.shifts = false)
    (hSystem : m.kind ≠ .system) :
    BitVec.ofInt 32 (Instruction.decode word).imm = Rv32i.immI (.ofInt 32 word) := by
  rw [h.decode, (withMnemonic_i _ hFormat hShifts hSystem).2, word_fieldsOf, Rv32i.ofInt_i]

/-- The amount of a decoded shift is that of the specification. -/
theorem imm_shift (h : Told word m) (hShifts : m.shifts = true) :
    BitVec.ofInt 32 (Instruction.decode word).imm =
      (Rv32i.shamt (.ofInt 32 word)).setWidth 32 := by
  rw [h.decode, imm_withMnemonic_shift _ hShifts, Rv32i.ofInt_shamt]

theorem imm_b (h : Told word m) (hFormat : m.format = .b) :
    BitVec.ofInt 32 (Instruction.decode word).imm = Rv32i.immB (.ofInt 32 word) := by
  rw [h.decode, imm_withMnemonic_b _ hFormat, word_fieldsOf, Rv32i.ofInt_b]

theorem imm_u (h : Told word m) (hFormat : m.format = .u) :
    BitVec.ofInt 32 (Instruction.decode word).imm = Rv32i.immU (.ofInt 32 word) := by
  rw [h.decode, imm_withMnemonic_u _ hFormat, word_fieldsOf, Rv32i.ofInt_u]

theorem imm_j (h : Told word .jal) :
    BitVec.ofInt 32 (Instruction.decode word).imm = Rv32i.immJ (.ofInt 32 word) := by
  rw [h.decode, imm_withMnemonic_jal, word_fieldsOf, Rv32i.ofInt_j]

/-- An operation on two registers. -/
theorem arithmetic_register (h : Told word m) {f : Int → Int → Int}
    (hTable : Reference.operation? m = some f) (x y pc : BitVec 32) :
    Rv32i.arithmetic? (.ofInt 32 word) x y pc = Rv32i.operation? m.funct3 m.funct7 x y := by
  have hFormat : m.opcode = Opcode.op ∧ m.format = .r ∧ m.kind = .alu := by
    cases m <;> first | exact ⟨rfl, rfl, rfl⟩ | cases hTable
  obtain ⟨hOpcode, hFormat, hKind⟩ := hFormat
  unfold Rv32i.arithmetic?
  rw [h.opcode, hOpcode, h.funct3 (by rw [hFormat]; nofun) (by rw [hFormat]; nofun),
    h.funct7 (.inl hFormat) (by rw [hKind]; nofun)]
  rfl

/-- An operation on a register and the immediate. -/
theorem arithmetic_immediate (h : Told word m) {n : Mnemonic}
    (hForm : Reference.registerForm? m = some n) (x y pc : BitVec 32) :
    Rv32i.arithmetic? (.ofInt 32 word) x y pc =
      Rv32i.operation? n.funct3 n.funct7 x (.ofInt 32 (Instruction.decode word).imm) := by
  unfold Rv32i.arithmetic?
  rw [h.opcode]
  cases m <;> cases hForm
  case slli | srli | srai =>
    rw [h.funct3 nofun nofun, h.funct7 (.inr rfl) nofun, ← h.imm_shift rfl]
    rfl
  all_goals
    rw [h.funct3 nofun nofun, ← h.imm_i rfl rfl nofun]
    rfl

end Told

end Instruction

open Instruction

variable {word : Int}

theorem ofInt_s32 (v : Int) : BitVec.ofInt 32 (s32 v) = BitVec.ofInt 32 v := by
  rw [← toInt_ofInt32, BitVec.ofInt_toInt]

/-- The table of operations on integers is that of operations on vectors. -/
theorem Reference.operation_rv32i {m : Mnemonic} {f : Int → Int → Int}
    (hTable : operation? m = some f) {a b : Int} (hA : IsWord a) (hB : IsWord b) :
    Rv32i.operation? m.funct3 m.funct7 (.ofInt 32 a) (.ofInt 32 b) =
      some (.ofInt 32 (f a b)) := by
  unfold IsWord at hA hB
  cases m <;> cases hTable <;> refine congrArg some (BitVec.eq_of_toInt_eq ?_)
  case add => rw [toInt_add32, toInt_ofInt32]
  case sub => rw [toInt_sub32, toInt_ofInt32]
  case xor => rw [toInt_xor32, toInt_ofInt32, s32_bitXor]
  case or => rw [toInt_or32, toInt_ofInt32, s32_bitOr]
  case and => rw [toInt_and32, toInt_ofInt32, s32_bitAnd]
  case slt => rw [slt32, hA, hB, toInt_ofInt32, s32_ite]; simp only [decide_eq_true_eq, toInt_ite32]
  case sltu => rw [ult32, toInt_ofInt32, s32_ite]; simp only [decide_eq_true_eq, toInt_ite32]
  case sll =>
    dsimp only
    rw [toInt_shiftLeft32, toInt_ofInt32, Rv32i.distance_eq, shiftBy_eq, bitAnd_31,
      shiftLeft_eq_mul]
  case srl =>
    dsimp only
    rw [toInt_ushiftRight32, toInt_ofInt32, Rv32i.distance_eq, shiftBy_eq, bitAnd_31,
      Nat.shiftRight_eq_div_pow]
    rfl
  case sra =>
    dsimp only
    rw [toInt_sshiftRight32, toInt_ofInt32, Rv32i.distance_eq, shiftBy_eq, bitAnd_31,
      shiftRight_eq_div, hA]

/-- An arithmetic instruction is in one of the tables, or has one of two forms of its own. -/
theorem Reference.tables_of_alu {m : Mnemonic} (hKind : m.kind = .alu) :
    m = .lui ∨ m = .auipc ∨ (∃ f, operation? m = some f) ∨
      ∃ n f, registerForm? m = some n ∧ operation? n = some f := by
  cases m <;>
    first
      | cases hKind; done
      | exact .inl rfl
      | exact .inr (.inl rfl)
      | exact .inr (.inr (.inl ⟨_, rfl⟩))
      | exact .inr (.inr (.inr ⟨_, _, rfl, rfl⟩))

section Tables

variable {ins : Instruction} {n : Mnemonic} {f : Int → Int → Int} (a b pc : Int)

/-- The table of operations, with two registers. -/
theorem Reference.arithmeticResult_register (hTable : operation? ins.mnemonic = some f) :
    arithmeticResult ins a b pc = .ok (f a b) := by
  unfold arithmeticResult
  cases hMnemonic : ins.mnemonic <;> rw [hMnemonic] at hTable <;> cases hTable <;> rfl

/-- The same table with an immediate, under the name that the operation has with registers. -/
theorem Reference.arithmeticResult_immediate (hForm : registerForm? ins.mnemonic = some n)
    (hTable : operation? n = some f) : arithmeticResult ins a b pc = .ok (f a ins.imm) := by
  unfold arithmeticResult
  cases hMnemonic : ins.mnemonic <;> rw [hMnemonic] at hForm <;> cases hForm <;> cases hTable <;>
    rfl

end Tables

/-- The reference machine computes on signed words what RV32I says. -/
theorem Reference.arithmeticResult_rv32i (hKind : (decode word).kind = .alu) {a b : Int}
    (hA : IsWord a) (hB : IsWord b) (pc : Int) :
    ∃ n, arithmeticResult (decode word) a b pc = .ok n ∧
      Rv32i.arithmetic? (.ofInt 32 word) (.ofInt 32 a) (.ofInt 32 b) (.ofInt 32 pc) =
        some (.ofInt 32 n) := by
  have hTold := @told_of_kind word (by rw [hKind]; nofun)
  rcases tables_of_alu hKind with hLui | hAuipc | ⟨f, hTable⟩ | ⟨m, f, hForm, hTable⟩
  · unfold arithmeticResult Rv32i.arithmetic?
    rw [hLui] at hTold ⊢
    rw [hTold.opcode, ← hTold.imm_u rfl]
    exact ⟨_, rfl, rfl⟩
  · unfold arithmeticResult Rv32i.arithmetic?
    rw [hAuipc] at hTold ⊢
    rw [hTold.opcode, ← hTold.imm_u rfl]
    exact ⟨_, rfl, congrArg some (BitVec.ofInt_add ..).symm⟩
  · rw [hTold.arithmetic_register hTable, operation_rv32i hTable hA hB]
    exact ⟨_, arithmeticResult_register a b pc hTable, rfl⟩
  · rw [hTold.arithmetic_immediate hForm, operation_rv32i hTable hA (isWord_imm_decode word)]
    exact ⟨_, arithmeticResult_immediate a b pc hForm hTable, rfl⟩

/-- The arithmetic unit reads its operands as signed words. -/
theorem Instruction.alu_cut (ins : Instruction) (ops : Operands) (pc : Int) :
    ins.alu { rs1 := some (s32 (ops.value .rs1)), rs2 := some (s32 (ops.value .rs2)) } pc =
      ins.alu ops pc := by
  have hTwice (v : Int) : s32 (s32 v) = s32 v := isWord_s32 v
  have hAdd (v w : Int) : s32 (s32 v + w) = s32 (v + w) := Int.bmod_add_bmod
  have hAddRight (v w : Int) : s32 (v + s32 w) = s32 (v + w) := Int.add_bmod_bmod
  have hSub (v w : Int) : s32 (s32 v - w) = s32 (v - w) := Int.bmod_sub_bmod
  have hSubRight (v w : Int) : s32 (v - s32 w) = s32 (v - w) := Int.sub_bmod_bmod
  have hMul (v w : Int) : s32 (s32 v * w) = s32 (v * w) := Int.bmod_mul_bmod
  have hShift (v : Int) : shiftBy (s32 v) = shiftBy v := by
    rw [← shiftBy_eq, ofInt_s32, shiftBy_eq]
  unfold alu second
  simp only [OperandMap.value, OperandMap.get?, Option.getD_some]
  -- the second operand is cut too only if it is a register
  by_cases hRegister : ins.format = .r <;>
    simp only [hRegister, if_true, if_false] <;>
    cases ins.mnemonic <;>
    simp only [hTwice, hAdd, hAddRight, hSub, hSubRight, hMul, hShift, u32_s32]

/-- So does the arithmetic unit, for operands of any size. -/
theorem Instruction.alu_rv32i (hKind : (decode word).kind = .alu) (ops : Operands) (pc : Int) :
    ∃ v, Rv32i.arithmetic? (.ofInt 32 word) (.ofInt 32 (ops.value .rs1))
        (.ofInt 32 (ops.value .rs2)) (.ofInt 32 pc) = some v ∧
      (decode word).alu ops pc = .ok v.toInt := by
  obtain ⟨v, hAlu, -⟩ := alu_ok hKind ops pc
  have hCut := (alu_cut (decode word) ops pc).trans hAlu
  have hA := isWord_s32 (ops.value .rs1)
  have hB := isWord_s32 (ops.value .rs2)
  obtain ⟨n, hResult, hSome⟩ := Reference.arithmeticResult_rv32i hKind hA hB pc
  obtain ⟨n', hSame, rfl⟩ := Reference.arithmeticResult_eq hKind hA hB (isWord_imm_decode word) hCut
    (fun _ => rfl) fun _ => rfl
  obtain rfl := Except.ok.inj (hSame.symm.trans hResult)
  rw [ofInt_s32, ofInt_s32] at hSome
  exact ⟨_, hSome, hAlu.trans (congrArg Except.ok (toInt_ofInt32 _).symm)⟩

/-- Comparing vectors with a sign is comparing the numbers that they stand for. -/
theorem sle32 (a b : Int) : (BitVec.ofInt 32 a).sle (.ofInt 32 b) = decide (s32 a ≤ s32 b) := by
  rw [BitVec.sle_eq_decide, toInt_ofInt32, toInt_ofInt32]

theorem ule32 (a b : Int) : (BitVec.ofInt 32 a).ule (.ofInt 32 b) = decide (u32 a ≤ u32 b) := by
  rw [BitVec.ule_eq_decide, toNat_ofInt32, toNat_ofInt32]

/-- The branch unit decides and goes as RV32I says. -/
theorem Instruction.branch_rv32i (hKind : (decode word).kind = .branch) (ops : Operands)
    (pc : Int) :
    ∃ taken target, Rv32i.branch? (.ofInt 32 word) (.ofInt 32 (ops.value .rs1))
        (.ofInt 32 (ops.value .rs2)) (.ofInt 32 pc) = some (taken, target) ∧
      (decode word).branch ops pc = .ok (taken, target.toNat) := by
  have hTold := @told_of_kind word (by rw [hKind]; nofun)
  unfold Instruction.kind at hKind
  unfold Rv32i.branch? branch
  rw [hTold.opcode]
  cases hMnemonic : (decode word).mnemonic <;> rw [hMnemonic] at hKind hTold <;>
    first | cases hKind; done | dsimp only
  case jal =>
    refine ⟨_, _, rfl, ?_⟩
    rw [← hTold.imm_j, ← BitVec.ofInt_add, toNat_ofInt32]
  case jalr =>
    rw [hTold.funct3 nofun nofun]
    refine ⟨_, _, rfl, ?_⟩
    rw [← hTold.imm_i rfl rfl nofun, ← BitVec.ofInt_add, ← toNat_even32]
    rfl
  case beq | bne | blt | bge | bltu | bgeu =>
    rw [hTold.funct3 nofun nofun]
    refine ⟨_, _, rfl, ?_⟩
    simp only [← hTold.imm_b rfl, ← BitVec.ofInt_add, toNat_ofInt32, slt32, ult32, sle32, ule32,
      beq32, bne, u32_s32]

namespace Reference

/-- The operands of an instruction are what its source registers hold, read as signed words. -/
def Supplies (r : Reference) (ins : Instruction) (ops : Operands) : Prop :=
  ∀ o reg, (o, reg) ∈ ins.sources → ops.value o = s32 (r.registers.read reg)

variable {r : Reference} {ins : Instruction} {ops : Operands}

/-- Registers that hold what the operands say supply an instruction. -/
theorem supplies_of_sources {first second : Nat}
    (hSources : ins.sources = [(.rs1, first), (.rs2, second)])
    (hFirst : ops.value .rs1 = s32 (r.registers.read first))
    (hSecond : ops.value .rs2 = s32 (r.registers.read second)) : r.Supplies ins ops := by
  intro o reg hIn
  rw [hSources] at hIn
  rcases List.mem_cons.mp hIn with hIs | hIn
  · cases hIs
    exact hFirst
  · cases List.mem_singleton.mp hIn
    exact hSecond

/-- Operands that are supplied are the registers. -/
theorem Supplies.value (h : r.Supplies ins ops) {o : Operand} {reg : Nat}
    (hIn : (o, reg) ∈ ins.sources) : ops.value o = r.registers.read reg :=
  (h o reg hIn).trans (r.registers.isWord_read reg)

/-- With the same operands, the reference machine has the result of the arithmetic unit. -/
theorem execute_alu {v pc : Int} (h : r.Supplies ins ops) (hImm : IsWord ins.imm)
    (hKind : ins.kind = .alu) (hAlu : ins.alu ops pc = .ok v) :
    ∃ e, (r.execute ins pc).1 = .ok e ∧ e.value = some v := by
  obtain ⟨n, hResult, hCut⟩ := arithmeticResult_eq hKind (r.registers.isWord_read ins.rs1)
    (r.registers.isWord_read ins.rs2) hImm hAlu h.value h.value
  unfold execute effect
  simp only [hKind, hResult]
  exact ⟨_, rfl, congrArg some hCut⟩

/-- With the same operands, it goes on where the branch unit does. -/
theorem execute_branch {taken : Bool} {target : Nat} {pc : Int} (h : r.Supplies ins ops)
    (hKind : ins.kind = .branch) (hBranch : ins.branch ops pc = .ok (taken, target)) :
    ∃ e, (r.execute ins pc).1 = .ok e ∧ e.nextPc = if taken then target else u32 (pc + 4) := by
  have hJump := jump_eq hKind (r.registers.isWord_read ins.rs1) (r.registers.isWord_read ins.rs2)
    hBranch h.value h.value
  unfold execute effect
  simp only [hKind, hJump]
  exact ⟨_, rfl, rfl⟩

end Reference

/-- Arithmetic instructions and branches are those of RV32I. For operands and program counters of
any size, the arithmetic unit returns the signed value of the result, and the branch unit the
decision and the target, that RV32I has for their low 32 bits. From registers that hold the
operands, the reference machine returns the same value and goes on at the same place. -/
theorem Instruction.units_rv32i (word pc : Int) (ops : Operands) :
    ((decode word).kind = .alu →
      ∃ v, Rv32i.arithmetic? (.ofInt 32 word) (.ofInt 32 (ops.value .rs1))
          (.ofInt 32 (ops.value .rs2)) (.ofInt 32 pc) = some v ∧
        (decode word).alu ops pc = .ok v.toInt ∧
        ∀ r : Reference, r.Supplies (decode word) ops →
          ∃ e, (r.execute (decode word) pc).1 = .ok e ∧ e.value = some v.toInt) ∧
    ((decode word).kind = .branch →
      ∃ taken target, Rv32i.branch? (.ofInt 32 word) (.ofInt 32 (ops.value .rs1))
          (.ofInt 32 (ops.value .rs2)) (.ofInt 32 pc) = some (taken, target) ∧
        (decode word).branch ops pc = .ok (taken, target.toNat) ∧
        ∀ r : Reference, r.Supplies (decode word) ops →
          ∃ e, (r.execute (decode word) pc).1 = .ok e ∧
            e.nextPc = (if taken then target else .ofInt 32 pc + 4).toNat) := by
  constructor
  · intro hKind
    obtain ⟨v, hSome, hAlu⟩ := alu_rv32i hKind ops pc
    refine ⟨v, hSome, hAlu, fun r hSupplies => ?_⟩
    exact Reference.execute_alu hSupplies (isWord_imm_decode word) hKind hAlu
  · intro hKind
    obtain ⟨taken, target, hSome, hBranch⟩ := branch_rv32i hKind ops pc
    refine ⟨taken, target, hSome, hBranch, fun r hSupplies => ?_⟩
    obtain ⟨e, hExecute, hNext⟩ := Reference.execute_branch hSupplies hKind hBranch
    refine ⟨e, hExecute, hNext.trans ?_⟩
    have hFollowing : u32 (pc + 4) = (BitVec.ofInt 32 pc + 4).toNat := by
      rw [← toNat_ofInt32, BitVec.ofInt_add]
      rfl
    rw [hFollowing, apply_ite BitVec.toNat]

/-- A negative number is shifted by 33, and compared with a number that is larger only if signs
count; the branch goes back across zero. -/
theorem Instruction.units_rv32i_of_signs :
    let ops : Operands := { rs1 := some (-7), rs2 := some 33 }
    let swapped : Operands := { rs1 := some 33, rs2 := some (-7) }
    let r : Reference :=
      { Reference.fresh { memWords := 8 } #[] with
        registers := (({} : Registers).write 1 (-7)).write 2 33 }
    ((decode 0x4020d1b3).kind = .alu ∧ r.Supplies (decode 0x4020d1b3) ops ∧
      (decode 0x4020d1b3).alu ops 4 = .ok (-4) ∧
      ∃ e, (r.execute (decode 0x4020d1b3) 4).1 = .ok e ∧ e.value = some (-4)) ∧
    ((decode 0xfe116ce3).kind = .branch ∧ r.Supplies (decode 0xfe116ce3) swapped ∧
      (decode 0xfe116ce3).branch swapped 4 = .ok (true, 0xfffffffc) ∧
      ∃ e, (r.execute (decode 0xfe116ce3) 4).1 = .ok e ∧ e.nextPc = 0xfffffffc) := by
  intro ops swapped r
  have hAlu : (decode 0x4020d1b3).kind = .alu := by decide +kernel
  have hBranch : (decode 0xfe116ce3).kind = .branch := by decide +kernel
  have hShift : r.Supplies (decode 0x4020d1b3) ops :=
    Reference.supplies_of_sources
      (show (decode 0x4020d1b3).sources = [(.rs1, 1), (.rs2, 2)] by decide +kernel) rfl rfl
  have hCompare : r.Supplies (decode 0xfe116ce3) swapped :=
    Reference.supplies_of_sources
      (show (decode 0xfe116ce3).sources = [(.rs1, 2), (.rs2, 1)] by decide +kernel) rfl rfl
  obtain ⟨v, hValue, hUnit, hReference⟩ := (units_rv32i 0x4020d1b3 4 ops).1 hAlu
  obtain rfl : BitVec.ofInt 32 (-4) = v :=
    Option.some.inj ((show _ = some _ by decide +kernel).symm.trans hValue)
  obtain ⟨taken, target, hGoes, hJump, hNext⟩ := (units_rv32i 0xfe116ce3 4 swapped).2 hBranch
  obtain ⟨rfl, rfl⟩ : true = taken ∧ 0xfffffffc#32 = target :=
    Prod.mk.inj (Option.some.inj ((show _ = some _ by decide +kernel).symm.trans hGoes))
  exact ⟨⟨hAlu, hShift, hUnit, hReference r hShift⟩, hBranch, hCompare, hJump, hNext r hCompare⟩

end AccelPipe

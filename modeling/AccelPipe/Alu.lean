import AccelPipe.Instruction.Basic
import AccelPipe.Refusal

/-! The integer arithmetic unit and the branch unit. Operands may be integers of any size; only
their low 32 bits matter to the results. -/
namespace AccelPipe.Instruction

/-- A shift distance: the low five bits. -/
def shiftBy (b : Int) : Nat := (b % 32).toNat

/-- The second arithmetic operand: a register or the immediate, as the format says. -/
def second (ins : Instruction) (ops : Operands) : Int :=
  if ins.format = .r then ops.value .rs2 else ins.imm

/-- The result of an arithmetic instruction, as a signed 32-bit number. -/
def alu (ins : Instruction) (ops : Operands) (pc : Int) : Except Refusal Int :=
  let a := ops.value .rs1
  let b := ins.second ops
  match ins.mnemonic with
  | .add | .addi => .ok (s32 (a + b))
  | .sub => .ok (s32 (a - b))
  | .sll | .slli => .ok (s32 (a * Nat.pow 2 (shiftBy b)))
  | .slt | .slti => .ok (if s32 a < s32 b then 1 else 0)
  | .sltu | .sltiu => .ok (if u32 a < u32 b then 1 else 0)
  | .xor | .xori => .ok (s32 (u32 a ^^^ u32 b : Nat))
  | .srl | .srli => .ok (s32 (u32 a / Nat.pow 2 (shiftBy b) : Nat))
  | .sra | .srai => .ok (s32 (s32 a / Nat.pow 2 (shiftBy b)))
  | .or | .ori => .ok (s32 (u32 a ||| u32 b : Nat))
  | .and | .andi => .ok (s32 (u32 a &&& u32 b : Nat))
  | .lui => .ok (s32 ins.imm)
  | .auipc => .ok (s32 (pc + ins.imm))
  | m => .error (.aluOperation m.name)

/-- Whether a branch or jump is taken, and its target. -/
def branch (ins : Instruction) (ops : Operands) (pc : Int) : Except Refusal (Bool × Nat) :=
  let a := s32 (ops.value .rs1)
  let b := s32 (ops.value .rs2)
  let target := u32 (pc + ins.imm)
  match ins.mnemonic with
  | .jal => .ok (true, target)
  | .jalr => .ok (true, u32 (ops.value .rs1 + ins.imm) / 2 * 2)
  | .beq => .ok (a == b, target)
  | .bne => .ok (a != b, target)
  | .blt => .ok (decide (a < b), target)
  | .bge => .ok (decide (b ≤ a), target)
  | .bltu => .ok (decide (u32 a < u32 b), target)
  | .bgeu => .ok (decide (u32 b ≤ u32 a), target)
  | m => .error (.branchCondition m.name)

end AccelPipe.Instruction

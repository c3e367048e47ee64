import AccelPipe.Accelerator.Basic

/-! The rectifier: negative values become zero, and one variant also caps them at its immediate. -/
namespace AccelPipe

structure Relu where
  tally : Tally := {}

namespace Relu

def bounded (ins : Instruction) : Bool := ins.funct3 == 1

def value (p : Precision) (ins : Instruction) (ops : Operands) : Int :=
  let y := max 0 (p.operand (ops.value .rs1))
  if bounded ins then min y (max 0 ins.imm) else y

def execute (u : Relu) (p : Precision) (ins : Instruction) (ops : Operands) : UnitResult × Relu :=
  (⟨value p ins ops, false⟩, ⟨u.tally.count false⟩)

end Relu

end AccelPipe

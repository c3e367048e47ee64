import AccelPipe.Accelerator.Basic

/-! The multiply-accumulate unit. Two variants add to a register, two to the accumulator of the
unit; all of them leave the sum in the accumulator. -/
namespace AccelPipe

structure Mac where
  acc : Int := 0
  tally : Tally := {}

namespace Mac

inductive Variant where
  /-- Adds to the register and clamps, whatever the configured rule. -/
  | clamp
  /-- Adds to the register and wraps around, whatever the configured rule. -/
  | wrap
  /-- Adds to the accumulator. -/
  | chain
  /-- Starts a new sum. -/
  | restart
deriving DecidableEq

def variant? (ins : Instruction) : Option Variant :=
  match ins.funct3 with
  | 0 => some .clamp
  | 1 => some .wrap
  | 2 => some .chain
  | 3 => some .restart
  | _ => none

def Variant.rule : Variant → Option Bool
  | clamp => some true
  | wrap => some false
  | chain | restart => none

/-- The product of the two factors at operand width. -/
def product (p : Precision) (ops : Operands) : Int :=
  p.operand (ops.value .rs1) * p.operand (ops.value .rs2)

/-- The exact sum of an operation. -/
def total (u : Mac) (p : Precision) (v : Variant) (ops : Operands) : Int :=
  match v with
  | .clamp | .wrap => ops.value .rd + product p ops
  | .chain => u.acc + product p ops
  | .restart => product p ops

def execute (u : Mac) (p : Precision) (ins : Instruction) (ops : Operands) :
    Except Failure UnitResult × Mac :=
  match variant? ins with
  | none => (.error (.refused (.macVariant ins.mnemonic.name)), u)
  | some v =>
    let out := p.outcome (u.total p v ops) v.rule
    (.ok out.result, ⟨out.acc, out.counted u.tally⟩)

def snapshot (u : Mac) : Value := .record [("acc", .int u.acc)]

end Mac

end AccelPipe

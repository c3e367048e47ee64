import AccelPipe.Accelerator.Basic

/-! The filter unit: every operation shifts one sample in and multiplies the samples, the newest
first, with the coefficients. -/
namespace AccelPipe

structure Fir where
  taps : Nat
  coefficients : List Int
  /-- The newest sample comes first. -/
  samples : List Int
  acc : Int := 0
  tally : Tally := {}

namespace Fir

def loads (ins : Instruction) : Bool := ins.funct3 == 1

def clears (ins : Instruction) : Bool := ins.funct3 == 2

variable (u : Fir)

def reads (ins : Instruction) (ops : Operands) : List Int :=
  if loads ins then rowAddrs u.taps (ops.value .rs1 + ins.imm) else []

/-- The samples after a new one has come and the oldest has gone. -/
def shifted (sample : Int) : List Int := sample :: u.samples.dropLast

def silence : List Int := List.replicate u.taps 0

def execute (p : Precision) (ins : Instruction) (ops : Operands) (words : List Int) :
    UnitResult × Fir :=
  if loads ins then
    (⟨u.taps, false⟩, { u with coefficients := words.map p.operand, tally := u.tally.count false })
  else if clears ins then
    (⟨0, false⟩, { u with samples := u.silence, acc := 0, tally := u.tally.count false })
  else
    let samples := u.shifted (p.operand (ops.value .rs1))
    let out := p.outcome (dot u.coefficients samples) none
    (out.result,
     { u with samples, acc := out.acc, tally := out.counted u.tally })

/-- The coefficients outlive a reset. -/
def reset : Fir := { u with samples := u.silence, acc := 0, tally := {} }

def snapshot : Value :=
  .record
    [("coeffs", .ints u.coefficients), ("samples", .ints u.samples), ("acc", .int u.acc)]

end Fir

end AccelPipe

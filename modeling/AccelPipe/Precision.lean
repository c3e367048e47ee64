import AccelPipe.Bits
import AccelPipe.Text.Numeral

/-! The precision of the accelerator units: how wide operands and accumulators are, and what
happens to a sum that does not fit. -/
namespace AccelPipe

structure Precision where
  operandBits : Nat
  accBits : Nat
  /-- Sums that do not fit are clamped; otherwise they wrap around. -/
  saturate : Bool
deriving DecidableEq

namespace Precision

variable (p : Precision)

/-- How many operands pass through 32 bits at once. -/
def lanes : Nat := 32 / p.operandBits

def accRange : Int × Int := signedRange p.accBits

/-- A register or memory word at operand width. -/
def operand (v : Int) : Int := signExtend v p.operandBits

def fit (v : Int) (bits : Nat) (saturate : Bool) : Int × Bool :=
  if saturate then clamp v bits else wrap v bits

/-- A sum at accumulator width, and whether it had to change. A rule of the instruction's own
goes before the configured one. -/
def accumulate (v : Int) (rule : Option Bool) : Int × Bool :=
  fit v p.accBits (rule.getD p.saturate)

/-- An accumulator as a 32-bit register value, and whether it had to change. -/
def result (v : Int) (rule : Option Bool) : Int × Bool := fit v 32 (rule.getD p.saturate)

/-- Widths and overflow rule on one line. -/
def labelOf (operandBits accBits : Int) (saturate : Bool) : String :=
  "INT" ++ Text.decimal operandBits ++ "/acc" ++ Text.decimal accBits ++ "/" ++
    (if saturate then "clamp" else "wrap")

def label : String := labelOf p.operandBits p.accBits p.saturate

/-- The ticks that a number of operands takes, one at least. -/
def beats (elements : Nat) : Nat := max 1 ((elements + p.lanes - 1) / p.lanes)

end Precision

end AccelPipe

import AccelPipe.Failure
import AccelPipe.Precision

/-! The bit rules for arguments that nobody has looked at yet: a width has to be positive, a count
other than zero, and two lists of one length. -/
namespace AccelPipe.Checked

def width (bits : Int) : Except Failure Nat := do
  if bits ≤ 0 then throw (.refused .width)
  (Room.checkPower bits.toNat).mapError .noRoom
  return bits.toNat

/-- A width with room for a number, or the given one if that is less. Between widths with room for
the number there is no difference. -/
def enough (v : Int) (bits : Nat) : Nat := min bits (Nat.log2 v.natAbs + 2)

/-- A width that is cut has room for the number, before and after. -/
theorem enough_eq (v : Int) (bits : Nat) :
    enough v bits = bits ∨ ∃ wide least, bits = wide + 1 ∧ enough v bits = least + 1 ∧
      v.natAbs < Nat.pow 2 wide ∧ v.natAbs < Nat.pow 2 least := by
  have own : v.natAbs < Nat.pow 2 (Nat.log2 v.natAbs + 1) := Nat.lt_log2_self
  rcases Nat.le_total bits (Nat.log2 v.natAbs + 2) with low | high
  · exact .inl (Nat.min_eq_left low)
  · have more : Nat.log2 v.natAbs + 1 ≤ bits - 1 := by omega
    exact .inr ⟨bits - 1, Nat.log2 v.natAbs + 1, by omega, Nat.min_eq_right high,
      Nat.lt_of_lt_of_le own (Nat.pow_le_pow_right (by decide) more), own⟩

theorem signExtend_enough (v : Int) (bits : Nat) :
    AccelPipe.signExtend v (enough v bits) = AccelPipe.signExtend v bits := by
  rcases enough_eq v bits with same | ⟨wide, least, rfl, cut, inWide, inLeast⟩
  · rw [same]
  · rw [cut, signExtend_eq_self inLeast, signExtend_eq_self inWide]

theorem clamp_enough (v : Int) (bits : Nat) :
    AccelPipe.clamp v (enough v bits) = AccelPipe.clamp v bits := by
  rcases enough_eq v bits with same | ⟨wide, least, rfl, cut, inWide, inLeast⟩
  · rw [same]
  · rw [cut, clamp_eq_self inLeast, clamp_eq_self inWide]

def signExtend (v bits : Int) : Except Failure Int :=
  (width bits).map fun bits => AccelPipe.signExtend v (enough v bits)

def signedRange (bits : Int) : Except Failure (Int × Int) := (width bits).map AccelPipe.signedRange

def clamp (v bits : Int) : Except Failure (Int × Bool) :=
  (width bits).map fun bits => AccelPipe.clamp v (enough v bits)

def wrap (v bits : Int) : Except Failure (Int × Bool) :=
  (width bits).map fun bits => AccelPipe.wrap v (enough v bits)

def average (total n : Int) (nearest : Bool) : Except Failure Int :=
  if n = 0 then .error .divisionByZero else .ok (AccelPipe.average total n nearest)

def dot (xs ys : List Int) : Except Failure Int :=
  if xs.length = ys.length then .ok (AccelPipe.dot xs ys)
  else .error (.refused (.unequalLengths xs.length ys.length))

/-- A precision with an operand width that nobody has looked at yet. Sums do not depend on that
width, so only reading an operand can fail. -/
structure Widths where
  operandBits : Int
  accBits : Nat
  saturate : Bool

namespace Widths

def ofBits (operandBits accBits : Int) (saturate : Bool) : Except Failure Widths :=
  if operandBits = 0 then .error .divisionByZero
  else (width accBits).map fun accBits => ⟨operandBits, accBits, saturate⟩

variable (w : Widths)

def label : String := Precision.labelOf w.operandBits w.accBits w.saturate

/-- How many operands pass through 32 bits at once, rounded down. -/
def lanes : Int := Int.fdiv 32 w.operandBits

def accRange : Int × Int := AccelPipe.signedRange w.accBits

def operand (v : Int) : Except Failure Int := signExtend v w.operandBits

def accumulate (v : Int) (rule : Option Bool) : Int × Bool :=
  Precision.fit v w.accBits (rule.getD w.saturate)

def result (v : Int) (rule : Option Bool) : Int × Bool :=
  Precision.fit v 32 (rule.getD w.saturate)

end Widths

end AccelPipe.Checked

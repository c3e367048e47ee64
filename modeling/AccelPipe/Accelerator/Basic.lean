import AccelPipe.Failure
import AccelPipe.Instruction.Basic
import AccelPipe.Precision

/-! What the accelerator units have in common. Sums are exact; the overflow rule is applied once,
when a sum leaves the accumulator. -/
namespace AccelPipe

inductive Accelerator where
  | mac
  | relu
  | conv2d
  | fir
  | pool
deriving DecidableEq

namespace Accelerator

def all : List Accelerator := [mac, relu, conv2d, fir, pool]

def kind : Accelerator → Kind
  | mac => .mac
  | relu => .relu
  | conv2d => .conv2d
  | fir => .fir
  | pool => .pool

/-- A blocking unit takes an operation only after the previous one has been committed. -/
def blocking : Accelerator → Bool
  | conv2d | fir => true
  | _ => false

/-- The unit that executes a kind of instruction. -/
def ofKind? : Kind → Option Accelerator
  | .mac => some mac
  | .relu => some relu
  | .conv2d => some conv2d
  | .fir => some fir
  | .pool => some pool
  | _ => none

theorem ofKind?_kind (a : Accelerator) : ofKind? a.kind = some a := by
  cases a <;> rfl

end Accelerator

/-- The work of a unit so far: its operations, and those whose sum had to change. -/
structure Tally where
  ops : Nat := 0
  saturations : Nat := 0

def Tally.count (t : Tally) (saturated : Bool) : Tally :=
  ⟨t.ops + 1, t.saturations + if saturated then 1 else 0⟩

/-- What an operation hands to the register file. -/
structure UnitResult where
  value : Int
  saturated : Bool := false

/-- A sum after it has left the accumulator, and whether it had to change at each of the two
widths. -/
structure Outcome where
  acc : Int
  changed : Bool
  value : Int
  narrowed : Bool

namespace Outcome

variable (o : Outcome)

def result : UnitResult := ⟨o.value, o.changed || o.narrowed⟩

/-- Counts the operation and a change at accumulator width; a later change is counted only if
there has been none before. -/
def counted (t : Tally) : Tally :=
  let t := t.count o.changed
  if o.narrowed && !o.changed then { t with saturations := t.saturations + 1 } else t

/-- However often a sum changes, it counts once. -/
theorem counted_eq (t : Tally) : o.counted t = t.count o.result.saturated := by
  obtain ⟨acc, changed, value, narrowed⟩ := o
  cases changed <;> cases narrowed <;> rfl

end Outcome

/-- The accumulator and the register value that an exact sum becomes. -/
def Precision.outcome (p : Precision) (total : Int) (rule : Option Bool) : Outcome :=
  let (acc, changed) := p.accumulate total rule
  let (value, narrowed) := p.result acc rule
  ⟨acc, changed, value, narrowed⟩

/-- The addresses of a square of memory words, row by row, where rows lie `pitch` words apart. -/
def squareAddrs (size : Nat) (base pitch : Int) : List Int :=
  (List.range size).flatMap fun i : Nat =>
    (List.range size).map fun j : Nat => base + i * pitch + j

/-- Consecutive addresses. -/
def rowAddrs (count : Nat) (base : Int) : List Int :=
  (List.range count).map fun i : Nat => base + i

end AccelPipe

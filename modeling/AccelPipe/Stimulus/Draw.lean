import AccelPipe.Binary64
import AccelPipe.Stimulus.Twister

/-! Computations that draw random numbers. They do not say where the numbers come from: a run takes
them from a generator, and a statement about all outcomes ranges over all numbers that could be
drawn. -/
namespace AccelPipe

inductive Draw (α : Type) where
  | done (a : α)
  /-- Draws a number below a positive bound. -/
  | index (bound : Nat) (next : Nat → Draw α)
  /-- Draws a number below 2 ^ 53, which stands for that part of one. -/
  | fraction (next : Nat → Draw α)

namespace Draw

variable {α β : Type}

def bind : Draw α → (α → Draw β) → Draw β
  | done a, f => f a
  | index bound next, f => index bound fun n => bind (next n) f
  | fraction next, f => fraction fun n => bind (next n) f

instance : Monad Draw where
  pure := done
  bind := bind

/-- The result for the numbers of a generator. -/
def run : Draw α → Twister → α × Twister
  | done a, t => (a, t)
  | index bound next, t =>
    let (n, t) := t.below bound
    run (next n) t
  | fraction next, t =>
    let (n, t) := t.fraction
    run (next n) t

/-- The results that some numbers in range lead to. -/
inductive Possible : Draw α → α → Prop where
  | done (a : α) : Possible (.done a) a
  | index {bound n : Nat} {next : Nat → Draw α} {a : α} (h : n < bound)
      (rest : Possible (next n) a) : Possible (.index bound next) a
  | fraction {n : Nat} {next : Nat → Draw α} {a : α} (h : n < Nat.pow 2 53)
      (rest : Possible (next n) a) : Possible (.fraction next) a

/-- A number between two bounds, both included. -/
def between (low high : Int) : Draw Int :=
  index (high - low + 1).toNat fun n => done (low + n)

/-- One of some values, all with the same chance. -/
def choice (first : α) (rest : List α) : Draw α :=
  index (rest.length + 1) fun n => done ((first :: rest).getD n first)

/-- Whether a fraction of one lies below the binary fraction nearest to `num / den`. -/
def isBelow (num den n : Nat) : Bool :=
  match Binary64.nearest false num den with
  | .finite _ mantissa exponent =>
    let limit := Binary64.scaled mantissa 1 (-exponent)
    n * limit.2 < limit.1 * Nat.pow 2 53
  | _ => true

/-- True with a chance of `num / den`. -/
def chance (num den : Nat) : Draw Bool := fraction fun n => done (isBelow num den n)

/-- Whether a part of `total`, as a binary fraction, lies below a natural number. -/
def partBelow (n total limit : Nat) : Bool :=
  match Binary64.nearest false (n * total) (Nat.pow 2 53) with
  | .finite _ mantissa exponent =>
    let part := Binary64.scaled mantissa 1 (-exponent)
    part.1 < limit * part.2
  | _ => false

/-- The first value whose weights so far exceed a part of all weights, or else the last value. -/
def pick (n total sum : Nat) (last : α) : List (α × Nat) → α
  | [] => last
  | (a, weight) :: rest =>
    if partBelow n total (sum + weight) then a else pick n total (sum + weight) a rest

/-- One of some values, with chances in proportion to their weights. -/
def weighted (default : α) (values : List (α × Nat)) : Draw α :=
  fraction fun n => done (pick n (values.foldr (fun v sum => v.2 + sum) 0) 0 default values)

end Draw

end AccelPipe

import AccelPipe.Stimulus.Draw

/-! What holds of the result of a computation however its numbers come out. A computation that draws
below an empty bound fails, so that this includes that no bound is empty. -/
namespace AccelPipe

namespace Twister

/-- A number drawn below a bound lies below it. -/
theorem tryBelow_lt {bound : Nat} (hPos : 0 < bound) (tries : Nat) (t : Twister) :
    (tryBelow bound tries t).1 < bound := by
  induction tries generalizing t with
  | zero => exact hPos
  | succ tries ih =>
      unfold tryBelow
      dsimp only
      split
      · assumption
      · exact ih _

/-- A thousand tries are never opened. -/
theorem below_lt {bound : Nat} (hPos : 0 < bound) (t : Twister) : (t.below bound).1 < bound :=
  tryBelow_lt hPos 1000 t

theorem fraction_lt (t : Twister) : t.fraction.1 < Nat.pow 2 53 := by
  have hHigh := t.next.1.toNat_lt
  have hLow := t.next.2.next.1.toNat_lt
  change t.next.1.toNat / 0x20 * 0x4000000 + t.next.2.next.1.toNat / 0x40 < 0x20000000000000
  omega

end Twister

namespace Draw

variable {α β : Type}

/-- However the numbers come out, none is drawn below an empty bound, and the result is one of
these. -/
inductive Ensures (P : α → Prop) : Draw α → Prop where
  | done {a : α} (h : P a) : Ensures P (.done a)
  | index {bound : Nat} {next : Nat → Draw α} (hPos : 0 < bound)
    (h : ∀ n < bound, Ensures P (next n)) : Ensures P (.index bound next)
  | fraction {next : Nat → Draw α} (h : ∀ n < Nat.pow 2 53, Ensures P (next n)) :
    Ensures P (.fraction next)

/-- The result for these numbers, each of which is taken modulo its bound, and zeros behind them. -/
def follow : Draw α → List Nat → α
  | done a, _ => a
  | index bound next, ns => follow (next (ns.headD 0 % bound)) ns.tail
  | fraction next, ns => follow (next (ns.headD 0 % Nat.pow 2 53)) ns.tail

theorem bind_done (d : Draw α) : d.bind done = d := by
  induction d with
  | done a => rfl
  | index bound next ih => exact congrArg (index bound) (funext ih)
  | fraction next ih => exact congrArg fraction (funext ih)

theorem bind_assoc {γ : Type} (d : Draw α) (f : α → Draw β) (g : β → Draw γ) :
    (d.bind f).bind g = d.bind fun a => (f a).bind g := by
  induction d with
  | done a => rfl
  | index bound next ih => exact congrArg (index bound) (funext ih)
  | fraction next ih => exact congrArg fraction (funext ih)

instance : LawfulMonad Draw :=
  LawfulMonad.mk' Draw bind_done (fun _ _ => rfl) bind_assoc

section Ensures

variable {P Q : α → Prop} {R : β → Prop} {d : Draw α}

theorem Ensures.mono (h : d.Ensures P) (hWeaker : ∀ a, P a → Q a) : d.Ensures Q := by
  induction h with
  | done h => exact .done (hWeaker _ h)
  | index hPos _ ih => exact .index hPos ih
  | fraction _ ih => exact .fraction ih

theorem Ensures.bind {f : α → Draw β} (h : d.Ensures P) (hNext : ∀ a, P a → (f a).Ensures R) :
    (d >>= f).Ensures R := by
  induction h with
  | done h => exact hNext _ h
  | index hPos _ ih => exact .index hPos ih
  | fraction _ ih => exact .fraction ih

/-- Whatever numbers lead to is ensured. -/
theorem Ensures.of_possible (h : d.Ensures P) {a : α} (hPossible : Possible d a) : P a := by
  induction hPossible with
  | done a =>
      cases h with
      | done h => exact h
  | index hLess _ ih =>
      cases h with
      | index _ h => exact ih (h _ hLess)
  | fraction hLess _ ih =>
      cases h with
      | fraction h => exact ih (h _ hLess)

/-- So is what given numbers lead to. -/
theorem Ensures.follow (h : d.Ensures P) (ns : List Nat) : P (d.follow ns) := by
  induction h generalizing ns with
  | done h => exact h
  | index hPos _ ih => exact ih _ (Nat.mod_lt _ hPos) ns.tail
  | fraction _ ih => exact ih _ (Nat.mod_lt _ (by decide)) ns.tail

theorem follow_map (f : α → β) (d : Draw α) (ns : List Nat) :
    (d >>= fun a => pure (f a)).follow ns = f (d.follow ns) := by
  induction d generalizing ns with
  | done a => rfl
  | index bound next ih => exact ih _ ns.tail
  | fraction next ih => exact ih _ ns.tail

/-- A generator draws its numbers in range. -/
theorem Ensures.run (h : d.Ensures P) (t : Twister) : P (d.run t).1 := by
  induction h generalizing t with
  | done h => exact h
  | @index bound next hPos _ ih =>
      have hLess := Twister.below_lt hPos t
      unfold Draw.run
      rcases hDrawn : t.below bound with ⟨n, rest⟩
      rw [hDrawn] at hLess
      exact ih n hLess rest
  | fraction _ ih =>
      have hLess := t.fraction_lt
      unfold Draw.run
      rcases hDrawn : t.fraction with ⟨n, rest⟩
      rw [hDrawn] at hLess
      exact ih n hLess rest

/-- Elements drawn one after the other. -/
theorem ensures_mapM {γ : Type} {f : γ → Draw α} {xs : List γ}
    (h : ∀ x ∈ xs, (f x).Ensures P) :
    (xs.mapM f).Ensures fun as => as.length = xs.length ∧ ∀ a ∈ as, P a := by
  induction xs with
  | nil => exact .done ⟨rfl, nofun⟩
  | cons x xs ih =>
      obtain ⟨hFirst, hRest⟩ := List.forall_mem_cons.mp h
      rw [List.mapM_cons]
      refine hFirst.bind fun a hA => (ih hRest).bind fun as hAs => .done ?_
      exact ⟨congrArg (· + 1) hAs.1, List.forall_mem_cons.mpr ⟨hA, hAs.2⟩⟩

end Ensures

/-! The numbers that are drawn. -/

theorem ensures_between {low high : Int} (h : low ≤ high) :
    (between low high).Ensures fun n => low ≤ n ∧ n ≤ high :=
  .index (by omega) fun n hLess => .done ⟨by omega, by omega⟩

/-- Nothing is known about what is made of a fraction. -/
theorem ensures_fraction (f : Nat → α) : (fraction fun n => done (f n)).Ensures fun _ => True :=
  .fraction fun _ _ => .done trivial

theorem ensures_chance (num den : Nat) : (chance num den).Ensures fun _ => True :=
  ensures_fraction _

theorem ensures_weighted (default : α) (values : List (α × Nat)) :
    (weighted default values).Ensures fun _ => True :=
  ensures_fraction _

theorem ensures_choice (first : α) (rest : List α) :
    (choice first rest).Ensures (· ∈ first :: rest) := by
  refine .index (Nat.succ_pos _) fun n hLess => .done ?_
  rw [List.getD_eq_getElem?_getD, List.getElem?_eq_getElem hLess]
  exact List.getElem_mem hLess

end Draw

end AccelPipe

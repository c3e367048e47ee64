import Mathlib.Data.List.Forall2

/-! Computations that may fail: what the success of a whole says of its parts. -/
namespace AccelPipe

variable {ε ε' α β : Type}

/-- A computation that succeeds has succeeded in its first part. -/
theorem bind_ok {x : Except ε α} {f : α → Except ε β} {b : β} (h : x >>= f = .ok b) :
    ∃ a, x = .ok a ∧ f a = .ok b := by
  cases x with
  | error e => cases h
  | ok a => exact ⟨a, rfl, h⟩

theorem ok_bind (a : α) (f : α → Except ε β) : (Except.ok a >>= f) = f a := rfl

/-- A computation whose first part succeeds goes on with the second. -/
theorem bind_of_ok {x : Except ε α} {f : α → Except ε β} {a : α} (h : x = .ok a) :
    (x >>= f) = f a := by
  rw [h, ok_bind]

/-- A computation that fails has failed in one of its two parts. -/
theorem bind_error {x : Except ε α} {f : α → Except ε β} {e : ε} (h : x >>= f = .error e) :
    x = .error e ∨ ∃ a, x = .ok a ∧ f a = .error e := by
  cases x with
  | error e' => exact .inl (congrArg Except.error (Except.error.inj h))
  | ok a => exact .inr ⟨a, rfl, h⟩

theorem map_ok {x : Except ε α} {f : α → β} {b : β} (h : x.map f = .ok b) :
    ∃ a, x = .ok a ∧ f a = b := by
  cases x with
  | error e => cases h
  | ok a => exact ⟨a, rfl, Except.ok.inj h⟩

theorem map_error {x : Except ε α} {f : α → β} {e : ε} (h : x.map f = .error e) :
    x = .error e := by
  cases x with
  | error e' => exact congrArg Except.error (Except.error.inj h)
  | ok a => cases h

theorem ok_of_toOption {x : Except ε α} {a : α} (h : x.toOption = some a) : x = .ok a := by
  cases x with
  | error e => cases h
  | ok b => exact congrArg Except.ok (Option.some.inj h)

theorem mapError_ok {x : Except ε α} {f : ε → ε'} {a : α} (h : x.mapError f = .ok a) :
    x = .ok a := by
  cases x with
  | error e => cases h
  | ok b => exact congrArg Except.ok (Except.ok.inj h)

/-- All that a computation can come to has a property, unless it fails. -/
def Always (P : α → Prop) (x : Except ε α) : Prop := ∀ a, x = .ok a → P a

theorem always_error {P : α → Prop} (e : ε) : Always P (.error e) := nofun

theorem always_bind {P : β → Prop} {x : Except ε α} {f : α → Except ε β}
    (h : ∀ a, Always P (f a)) : Always P (x >>= f) := by
  intro b hOk
  obtain ⟨a, -, hRest⟩ := bind_ok hOk
  exact h a b hRest

theorem always_ite {P : α → Prop} {p : Prop} [Decidable p] {x y : Except ε α} (hX : Always P x)
    (hY : Always P y) : Always P (if p then x else y) := by
  split
  · exact hX
  · exact hY

/-- A list of computations succeeds if all of them do. -/
theorem mapM_ok {f : α → Except ε β} {xs : List α} {ys : List β} (h : xs.mapM f = .ok ys) :
    List.Forall₂ (fun x y => f x = .ok y) xs ys := by
  induction xs generalizing ys with
  | nil =>
      cases h
      exact .nil
  | cons x xs ih =>
      rw [List.mapM_cons] at h
      obtain ⟨y, hFirst, h⟩ := bind_ok h
      obtain ⟨rest, hRest, h⟩ := bind_ok h
      cases h
      exact .cons hFirst (ih hRest)

/-- It fails as one of them does. -/
theorem mapM_error {f : α → Except ε β} {xs : List α} {e : ε} (h : xs.mapM f = .error e) :
    ∃ x ∈ xs, f x = .error e := by
  induction xs with
  | nil => cases h
  | cons x xs ih =>
      rw [List.mapM_cons] at h
      rcases bind_error h with hFirst | ⟨y, -, h⟩
      · exact ⟨x, List.mem_cons_self, hFirst⟩
      · rcases bind_error h with hRest | ⟨rest, -, h⟩
        · obtain ⟨x', hIn, hFails⟩ := ih hRest
          exact ⟨x', List.mem_cons_of_mem x hIn, hFails⟩
        · cases h

/-- Checks one after another succeed if all of them do. -/
theorem forM_of_ok {f : α → Except ε Unit} {xs : List α} (h : ∀ x ∈ xs, f x = .ok ()) :
    xs.forM f = .ok () := by
  induction xs with
  | nil => rfl
  | cons x xs ih =>
      rw [List.forall_mem_cons] at h
      exact (bind_of_ok h.1).trans (ih h.2)

/-- Checks one after another fail as one of them does. -/
theorem forM_error {f : α → Except ε Unit} {xs : List α} {e : ε} (h : xs.forM f = .error e) :
    ∃ x ∈ xs, f x = .error e := by
  induction xs with
  | nil => cases h
  | cons x xs ih =>
      rcases bind_error h with hFirst | ⟨_, -, h⟩
      · exact ⟨x, List.mem_cons_self, hFirst⟩
      · obtain ⟨x', hIn, hFails⟩ := ih h
        exact ⟨x', List.mem_cons_of_mem x hIn, hFails⟩

/-- They succeed only if all of them do. -/
theorem forM_ok {f : α → Except ε Unit} {xs : List α} {u : Unit} (h : xs.forM f = .ok u) :
    ∀ x ∈ xs, f x = .ok () := by
  induction xs with
  | nil => exact fun _ => nofun
  | cons x xs ih =>
      obtain ⟨_, hFirst, h⟩ := bind_ok h
      exact List.forall_mem_cons.mpr ⟨hFirst, ih h⟩

/-- A chain of steps fails as one of them does. -/
theorem foldlM_error {f : β → α → Except ε β} {xs : List α} {s : β} {e : ε}
    (h : xs.foldlM f s = .error e) : ∃ t, ∃ x ∈ xs, f t x = .error e := by
  induction xs generalizing s with
  | nil => cases h
  | cons x xs ih =>
      rw [List.foldlM_cons] at h
      rcases bind_error h with hFirst | ⟨t, -, h⟩
      · exact ⟨s, x, List.mem_cons_self, hFirst⟩
      · obtain ⟨t', x', hIn, hFails⟩ := ih h
        exact ⟨t', x', List.mem_cons_of_mem x hIn, hFails⟩

end AccelPipe

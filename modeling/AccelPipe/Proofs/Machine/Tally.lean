import AccelPipe.Proofs.Pipeline.Runs
import Mathlib.Algebra.GroupWithZero.Nat

/-! What the accelerator units count: their operations, and those whose sum had to change. -/
namespace AccelPipe

/-- A convolution counts one operation, and a clamped one besides if it was. -/
theorem Conv2d.execute_tally {u : Conv2d} {p : Precision} {ins : Instruction} {ops : Operands}
    {words : List Int} {r : UnitResult} (h : (u.execute p ins ops words).1 = .ok r) :
    (u.execute p ins ops words).2.tally = u.tally.count r.saturated := by
  unfold execute at h ⊢
  dsimp only at h ⊢
  by_cases hLoads : loads ins = true
  · rw [if_pos hLoads] at h ⊢
    cases h
    rfl
  · rw [if_neg hLoads] at h ⊢
    by_cases hSlides : u.slides (originOf ops) = true
    · rw [if_pos hSlides] at h ⊢
      by_cases hFew : words.length < u.size
      · rw [if_pos hFew] at h
        cases h
      · rw [if_neg hFew] at h ⊢
        cases h
        exact Outcome.counted_eq _ _
    · rw [if_neg hSlides] at h ⊢
      cases h
      exact Outcome.counted_eq _ _

/-- A filter does as well. -/
theorem Fir.execute_tally (u : Fir) (p : Precision) (ins : Instruction) (ops : Operands)
    (words : List Int) :
    (u.execute p ins ops words).2.tally = u.tally.count (u.execute p ins ops words).1.saturated := by
  unfold execute
  dsimp only
  split
  · rfl
  · split
    · rfl
    · exact Outcome.counted_eq _ _

namespace Units

variable {u : Units}

/-- A unit counts the operations that it carries out, and no others. -/
theorem execute_tally {acc : Accelerator} {ins : Instruction} {ops : Operands}
    {words : List Int} {r : UnitResult} (h : (u.execute acc ins ops words).1 = .ok r)
    (other : Accelerator) :
    (u.execute acc ins ops words).2.tally other =
      if acc = other then (u.tally other).count r.saturated else u.tally other := by
  cases acc with
  | mac =>
      unfold execute Mac.execute at h ⊢
      dsimp only at h ⊢
      split at h
      · cases h
      · cases h
        cases other <;> first | exact Outcome.counted_eq _ _ | rfl
  | relu =>
      cases h
      cases other <;> rfl
  | conv2d =>
      have hCount := Conv2d.execute_tally h
      cases other <;> first | exact hCount | rfl
  | fir =>
      cases h
      have hCount := u.fir.execute_tally u.precision ins ops words
      cases other <;> first | exact hCount | rfl
  | pool =>
      unfold execute Pool.execute at h ⊢
      dsimp only at h ⊢
      split at h
      · cases h
      · cases h
        cases other <;> first | exact Outcome.counted_eq _ _ | rfl

/-- A store that passes a unit by is no operation. -/
theorem snoop_tally (u : Units) (addr : Int) (acc : Accelerator) :
    (u.snoop addr).tally acc = u.tally acc := by
  cases acc with
  | conv2d =>
      unfold snoop tally Conv2d.snoop
      dsimp only
      split
      · split <;> rfl
      · rfl
  | _ => rfl

/-- The operations of all units whose sum had to change. -/
def saturations (u : Units) : Nat := (Accelerator.all.map fun acc => (u.tally acc).saturations).sum

end Units

section Perform

variable {units units' : Units} {memory : Int → Int} {ins : Instruction} {ops : Operands}
  {pc : Int} {w : Work}

/-- An instruction counts in its own unit only. -/
theorem perform_tally (h : perform units memory ins ops pc = .ok (w, units'))
    (acc : Accelerator) :
    units'.tally acc =
      if ins.kind = acc.kind then (units.tally acc).count w.saturated else units.tally acc := by
  by_cases hUnit : ∃ mine : Accelerator, ins.kind = mine.kind
  · obtain ⟨mine, hKind⟩ := hUnit
    rw [perform_unit hKind] at h
    obtain ⟨r, hResult, hDone⟩ := bind_ok h
    cases hDone
    rw [Units.execute_tally hResult acc, hKind]
    cases mine <;> cases acc <;> rfl
  · obtain ⟨hSame, -⟩ := perform_plain (fun mine hKind => hUnit ⟨mine, hKind⟩) h units memory
    rw [hSame, if_neg fun hKind => hUnit ⟨acc, hKind⟩]

/-- One operation changes the sum of one unit at most. -/
theorem perform_saturations (h : perform units memory ins ops pc = .ok (w, units')) :
    units'.saturations = units.saturations + if w.saturated then 1 else 0 := by
  unfold Units.saturations
  simp only [perform_tally h]
  by_cases hUnit : ∃ mine : Accelerator, ins.kind = mine.kind
  · obtain ⟨mine, hKind⟩ := hUnit
    rw [hKind]
    cases mine <;> simp [Accelerator.all, Accelerator.kind, Tally.count] <;> omega
  · have hPlain : ∀ acc : Accelerator, ¬ ins.kind = acc.kind := fun acc hKind => hUnit ⟨acc, hKind⟩
    obtain ⟨-, hUnsaturated, -⟩ := perform_plain hPlain h units memory
    simp [hPlain, hUnsaturated]

end Perform

namespace Machine

variable {a : Machine}

theorem snooped_tally (a : Machine) (u : Units) (acc : Accelerator) :
    (a.snooped u).tally acc = u.tally acc := by
  unfold snooped
  cases a.store with
  | none => rfl
  | some s => exact u.snoop_tally s.addr acc

/-- What is performed is one operation of the unit that performs it. -/
theorem performed_ops (h : a.Sound) (acc : Accelerator) :
    (a.performed.2.tally acc).ops =
      (a.units.tally acc).ops + if a.instruction.kind = acc.kind then 1 else 0 := by
  have hTally : a.performed.2.tally acc =
      if a.instruction.kind = acc.kind then (a.units.tally acc).count a.performed.1.saturated
      else a.units.tally acc := perform_tally (perform_eq h) acc
  rw [hTally]
  split <;> rfl

/-- One instruction further, its unit has one operation more. -/
theorem next_ops (h : a.Sound) (acc : Accelerator) :
    (a.next.units.tally acc).ops =
      (a.units.tally acc).ops + if a.instruction.kind = acc.kind then 1 else 0 := by
  rw [next_units, snooped_tally, performed_ops h]

/-- The operations of a unit are those in the history of the machine. -/
theorem after_ops (h : a.Sound) (n : Nat) (acc : Accelerator) :
    ((after n a).units.tally acc).ops =
      (a.units.tally acc).ops + (a.history n).countP (·.ins.kind = acc.kind) := by
  induction n with
  | zero => rfl
  | succ n ih =>
      rw [after_succ, next_ops (h.after n), ih, history_succ, List.countP_append, Nat.add_assoc]
      simp [commit, List.countP_singleton]

/-- A commit says whether the operation was clamped. -/
theorem commit_saturated (a : Machine) : a.commit.saturated = a.performed.1.saturated := by
  change a.finished.saturated = _
  rw [finished_rest]

/-- One instruction further, the units have clamped one sum more if the commit says so. -/
theorem next_saturations (h : a.Sound) :
    a.next.units.saturations = a.units.saturations + if a.commit.saturated then 1 else 0 := by
  have hPerformed : a.performed.2.saturations =
      a.units.saturations + if a.performed.1.saturated then 1 else 0 :=
    perform_saturations (perform_eq h)
  rw [commit_saturated, ← hPerformed, next_units]
  unfold Units.saturations
  simp only [snooped_tally]

/-- The saturations of the units are those in the history of the machine. -/
theorem after_saturations (h : a.Sound) (n : Nat) :
    (after n a).units.saturations =
      a.units.saturations + (a.history n).countP (·.saturated) := by
  induction n with
  | zero => rfl
  | succ n ih =>
      rw [after_succ, next_saturations (h.after n), ih, history_succ, List.countP_append,
        Nat.add_assoc, List.countP_singleton]

end Machine

end AccelPipe

import AccelPipe.Proofs.Pipeline.Standing
import AccelPipe.Proofs.Refinement
import AccelPipe.Proofs.Simulator.Budget

/-! The states that ticks lead to. A tick may fail in the middle of a run, and the ticks behind it go on
from where it has left the pipeline. None fails if the run is not checked, or if the addresses of
windows stay in the numbers of 64 bits. -/
namespace AccelPipe

open Pipeline

/-- Without a reference machine, there is nothing that could fail. -/
theorem Standing.tick_unchecked {a : Machine} {p : Pipeline} (h : Standing a p)
    (hRun : p.status.finished = false) (hNone : p.reference = none) :
    ∃ q, p.tick = (.ok (), q) ∧ q.reference = none := by
  obtain ⟨m, hStaged, hCase⟩ := (h.live hRun).2.tick hRun
  have hReference : m.pipeline.reference = none := hStaged.reference.trans hNone
  generalize p.tick = result at hCase
  cases hCase with
  | @idle q hWb hRest =>
      refine ⟨q, rfl, ?_⟩
      rw [hRest]
      exact hReference
  | @retires q c mismatches reference hWb hCommit hCycle hKind hCompared hRest =>
      refine ⟨q, rfl, ?_⟩
      rw [hNone] at hCompared
      cases hCompared
      rw [hRest]
  | fails hWb hCommit hKind hCompared =>
      rw [hNone] at hCompared
      cases hCompared
  | @illegal q f hWb hKind hRest =>
      refine ⟨q, rfl, ?_⟩
      rw [hRest]
      exact hReference

namespace Simulator

variable {c : Config} {program : Image} {data : List (Int × List Int)} {a : Machine}
  {p : Pipeline} {s : Simulator} {k : Nat}

theorem ticks_succ (s : Simulator) (k : Nat) : s.ticks (k + 1) = (s.ticks k).tick.2 := rfl

/-- Whatever its ticks come to, a run stands for the machine. -/
theorem ticks_standing (hValid : c.Valid) (k : Nat) :
    Standing (c.machine program data) ((loaded c program data).ticks k).pipeline := by
  induction k with
  | zero =>
      unfold ticks
      rw [loaded_pipeline]
      have hFollows := hValid.follows_build program data
      have hRetired : (build c program data).retired = 0 := by
        rw [build_eq]
        rfl
      rw [show c.machine program data = Machine.after (build c program data).retired
        (c.machine program data) by rw [hRetired]; rfl] at hFollows
      refine .underWay ?_ hFollows ?_
      · rw [hRetired]
        exact fun _ i hLess => absurd hLess (Nat.not_lt_zero i)
      · rw [build_eq]
        exact .inl rfl
  | succ k ih =>
      exact advance_keeps ih ih.tick (fun hRun => ih.of_eq (.inr ⟨hRun, rfl⟩))
        (fun _ _ _ hOld => hOld.of_eq (.inl rfl)) _

/-- What is so at the start, and what ticks, timeouts and differences on record keep, is so in every
state. That a run stands for the machine may be used for a tick. -/
theorem ticks_keep {P : Pipeline → Prop} (hValid : c.Valid) (hStart : P (build c program data))
    (hTick : ∀ p, Standing (c.machine program data) p → p.status.finished = false → P p →
      P p.tick.2)
    (hTimeout : ∀ p, p.status.finished = false → P p → P p.timeout)
    (hDiffers : ∀ p mismatches, P p → P (p.differing mismatches)) (k : Nat) :
    P ((loaded c program data).ticks k).pipeline := by
  induction k with
  | zero =>
      unfold ticks
      rw [loaded_pipeline]
      exact hStart
  | succ k ih =>
      exact advance_keeps ih (fun hRun => hTick _ (ticks_standing hValid k) hRun ih)
        (fun hRun => hTimeout _ hRun ih) (fun q mismatches _ => hDiffers q mismatches) _

/-- What the slots keep, and what is so with one slot in Fetch, is so in every state. -/
theorem ticks_kept (hValid : c.Valid) {P : Slots → Prop} (hKept : Stages.Kept P)
    (hStart : ∀ s : Slot, P { Slots.bubbles with fetch := some s }) (k : Nat) :
    P ((loaded c program data).ticks k).pipeline.slots := by
  refine ticks_keep (P := fun p => P p.slots) hValid ?_
    (fun _ hStanding hRun h => hStanding.kept_tick hKept hRun h) (fun _ _ h => h) (fun _ _ h => h) k
  rw [build_eq]
  exact hStart _

/-- Every tick keeps the memory sound. -/
theorem ticks_sound (hValid : c.Valid) (k : Nat) :
    ((loaded c program data).ticks k).pipeline.memory.Sound := by
  refine ticks_keep (P := fun p => p.memory.Sound) hValid ?_ (fun _ _ _ h => sound_tick h)
    (fun _ _ h => h) (fun _ _ h => h) k
  rw [build_eq]
  exact (Memory.sound_fresh hValid).loadAll data

/-- Without comparison there is no reference machine at any tick. -/
theorem ticks_unchecked (hValid : c.Valid) (hNone : c.checkReference = false) (k : Nat) :
    ((loaded c program data).ticks k).pipeline.reference = none := by
  refine ticks_keep (P := fun p => p.reference = none) hValid ?_ (fun p hStanding hRun h => ?_)
    (fun _ _ h => h) (fun _ _ h => h) k
  · rw [(c.compared_build program data).reference, hNone]
    rfl
  · obtain ⟨q, hTick, hStill⟩ := hStanding.tick_unchecked hRun h
    rw [hTick]
    exact hStill

/-! Ticks that fail. -/

/-- A clock cycle of a run fails only if the tick of its pipeline does. Otherwise it is that tick, with
the last differences on record at the end, or the time is up. -/
theorem advance_result (hSound : p.memory.Sound) (hRun : p.status.finished = false) (budget : Int) :
    advance budget p = (.ok (), p.timeout) ∨
      (∃ q mismatches, p.tick = (.ok (), q) ∧ advance budget p = (.ok (), q.differing mismatches)) ∨
      ∃ f q, p.tick = (.error f, q) ∧ advance budget p = (.error f, q) := by
  by_cases hBudget : budget ≤ p.cycle
  · exact .inl (advance_timeout hRun hBudget)
  rw [advance_within hRun (Int.not_le.mp hBudget)]
  rcases hTick : p.tick with ⟨result, q⟩
  cases result with
  | error f => exact .inr (.inr ⟨f, q, rfl, rfl⟩)
  | ok u =>
      refine .inr (.inl ⟨q, ?_⟩)
      dsimp only
      have hStill : q.memory.Sound := by
        have hNext := sound_tick hSound
        rw [hTick] at hNext
        exact hNext
      split
      · obtain ⟨mismatches, hIs⟩ := finalize_differing q
        rw [finalize_of_sound hStill, hIs]
        exact ⟨mismatches, rfl, rfl⟩
      · exact ⟨[], rfl, rfl⟩

/-- None of the first ticks has failed as long as the run was under way. -/
def Intact (s : Simulator) (k : Nat) : Prop :=
  ∀ i < k, (s.ticks i).status.finished = false → ((s.ticks i).tick).1 = .ok ()

theorem intact_zero (s : Simulator) : s.Intact 0 := fun i hLess => absurd hLess (Nat.not_lt_zero i)

/-- One more tick is intact if the run has ended or the tick succeeds. -/
theorem intact_succ : s.Intact (k + 1) ↔
    s.Intact k ∧ ((s.ticks k).status.finished = false → ((s.ticks k).tick).1 = .ok ()) := by
  constructor
  · exact fun h => ⟨fun i hLess => h i (Nat.lt_succ_of_lt hLess), h k (Nat.lt_succ_self k)⟩
  · rintro ⟨hBefore, hNow⟩ i hLess
    rcases Nat.lt_succ_iff_lt_or_eq.mp hLess with hOld | rfl
    · exact hBefore i hOld
    · exact hNow

/-- A simulator that has ended refuses a tick and stays as it is. -/
theorem tick_of_finished (h : s.status.finished = true) :
    s.tick = (.error (.halted s.status), s) :=
  tick_of_advance (advance_of_finished h)

/-- A clock cycle of a run that is not checked. -/
theorem advance_unchecked (budget : Int) (h : Standing a p) (hRun : p.status.finished = false)
    (hNone : p.reference = none) : ∃ q, advance budget p = (.ok (), q) := by
  by_cases hBudget : budget ≤ p.cycle
  · exact ⟨_, advance_timeout hRun hBudget⟩
  obtain ⟨q, hTick, hStill⟩ := h.tick_unchecked hRun hNone
  refine ⟨q, ?_⟩
  rw [advance_within hRun (Int.not_le.mp hBudget), hTick]
  dsimp only
  split
  · unfold finalize
    rw [hStill]
  · rfl

/-- A run, whether it is checked or not, has another tick. -/
theorem ticks_goesOn (hValid : c.Valid) (hSize : program.size < 0x40000000)
    (hExact : c.checkReference = true → (c.reference program data).Exact (k + 1))
    (hRun : ((loaded c program data).ticks k).status.finished = false) :
    ∃ t, ((loaded c program data).ticks k).tick = (.ok (), t) := by
  obtain ⟨q, hAdvance⟩ : ∃ q, advance ((loaded c program data).ticks k).config.maxCycles
      ((loaded c program data).ticks k).pipeline = (.ok (), q) := by
    cases hChecks : c.checkReference with
    | false =>
        exact advance_unchecked _ (ticks_standing hValid k) hRun (ticks_unchecked hValid hChecks k)
    | true =>
        by_cases hBudget : ((loaded c program data).ticks k).config.maxCycles ≤
            (((loaded c program data).ticks k).pipeline.cycle : Int)
        · exact ⟨_, advance_timeout hRun hBudget⟩
        have hChecked := hExact hChecks
        obtain ⟨hReached, hCompared, hCount⟩ :=
          ticks_compared hValid hSize (hChecked.mono (Nat.le_succ k))
        obtain ⟨q, -, hAdvance, -⟩ := advance_tick hCompared (hValid.inStep hSize data)
          (hChecked.mono (Nat.succ_le_succ hCount)) hReached hRun (Int.not_le.mp hBudget)
        exact ⟨q, hAdvance⟩
  exact ⟨_, tick_of_advance hAdvance⟩

/-- No tick fails as long as the windows stay within the numbers of 64 bits. -/
theorem intact_of_exact (hValid : c.Valid) (hSize : program.size < 0x40000000)
    (hExact : c.checkReference = true → (c.reference program data).Exact k) :
    (loaded c program data).Intact k := by
  intro i hLess hRun
  obtain ⟨t, hTick⟩ :=
    ticks_goesOn hValid hSize (fun hChecks => (hExact hChecks).mono hLess) hRun
  rw [hTick]

end Simulator

end AccelPipe

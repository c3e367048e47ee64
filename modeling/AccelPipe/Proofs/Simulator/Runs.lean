import AccelPipe.Proofs.Simulator.Start

/-! A run of a simulator: ticks of its pipeline, until it is over, or until the budget is. -/
namespace AccelPipe

open Pipeline

/-- A state of a run that began with the pipeline `p`. -/
inductive RunState (p : Pipeline) : Pipeline → Prop
  | underWay {q : Pipeline} (h : Steps p q) (hRun : q.status.finished = false) : RunState p q
  | timedOut {q : Pipeline} (h : Steps p q) (hRun : q.status.finished = false) :
      RunState p q.timeout
  | ended {q r : Pipeline} (h : Steps p q) (hEnd : q.status.finished = true)
      (hFinal : Simulator.finalize q = (.ok (), r)) : RunState p r

/-- The address being fetched stays the same while faults are recorded. -/
theorem Pipeline.recordHere_eq (p : Pipeline) (mismatches : List Mismatch) :
    mismatches.foldl (fun p m => p.record .correctness (p.pc.getD 0) m.message) p =
      mismatches.foldl (fun q m => q.record .correctness (p.pc.getD 0) m.message) p := by
  induction mismatches generalizing p with
  | nil => rfl
  | cons m rest ih => exact ih (p.record .correctness (p.pc.getD 0) m.message)

/-- A pipeline with differences from the reference machine on record. -/
def Pipeline.differing (p : Pipeline) (mismatches : List Mismatch) : Pipeline :=
  { p with faultLog := mismatchFaults p.cycle (p.pc.getD 0) mismatches ++ p.faultLog }

/-- All that the comparison at the end does is to put on record the differences that it finds. -/
theorem Simulator.finalize_differing (p : Pipeline) :
    ∃ mismatches, (finalize p).2 = p.differing mismatches := by
  unfold finalize
  split
  · split
    · exact ⟨[], rfl⟩
    · split
      · exact ⟨[], rfl⟩
      · rename_i mismatches _
        refine ⟨mismatches, ?_⟩
        dsimp only
        rw [recordHere_eq, recordAll_eq]
        rfl
  · exact ⟨[], rfl⟩

/-- The comparison at the end changes the log of faults only. -/
theorem Simulator.finalize_faultLog (p : Pipeline) :
    (finalize p).2 = { p with faultLog := (finalize p).2.faultLog } := by
  obtain ⟨mismatches, hIs⟩ := finalize_differing p
  rw [hIs]
  rfl

theorem Simulator.finalize_rest {p q : Pipeline} (h : finalize p = (.ok (), q)) :
    q = { p with faultLog := q.faultLog } := by
  have hRest := finalize_faultLog p
  rw [h] at hRest
  exact hRest

namespace Reached

variable {a : Machine} {p q : Pipeline}

/-- Faults do not matter for what has been reached. -/
theorem record (h : Reached a p) (hRest : q = { p with faultLog := q.faultLog }) :
    Reached a q := by
  rw [hRest]
  cases h with
  | underWay hDone hOpen hFollows hIs =>
      exact .underWay (hDone.of_eq rfl rfl) hOpen (hFollows.of_eq rfl rfl rfl rfl rfl) hIs
  | exited hRuns hDone hHistory hKind hEnd hIs =>
      exact .exited hRuns hDone hHistory hKind { hEnd with } hIs
  | illegal hDone hKind hEnd hIs =>
      exact .illegal (hDone.of_eq rfl rfl) hKind { hEnd with } hIs

/-- At the end of its time a run has reached what it had reached before. -/
theorem timeout (h : Reached a p) (hRun : p.status.finished = false) : Reached a p.timeout := by
  obtain ⟨n, hDone, hOpen, hFollows⟩ := h.live hRun
  exact .underWay (hDone.of_eq rfl rfl) hOpen (hFollows.of_eq rfl rfl rfl rfl rfl) (.inr rfl)

end Reached

/-- In every state of a run the pipeline has reached a state of the machine. -/
theorem RunState.reached {a : Machine} {p q : Pipeline} (h : RunState p q) (hStart : Reached a p) :
    Reached a q := by
  cases h with
  | underWay hSteps => exact hSteps.reached hStart
  | timedOut hSteps hRun => exact (hSteps.reached hStart).timeout hRun
  | ended hSteps hEnd hFinal => exact (hSteps.reached hStart).record (Simulator.finalize_rest hFinal)

/-- A run that is over, and not for want of time, has ended in a tick. The comparison behind it has
recorded faults at most. -/
theorem RunState.ended_of_finished {p q : Pipeline} (h : RunState p q)
    (hEnd : q.status.finished = true) (hTime : q.status ≠ .timeout) :
    ∃ r, Steps p r ∧ r.status = q.status ∧ q = { r with faultLog := q.faultLog } := by
  cases h with
  | underWay _ hRun => cases hEnd.symm.trans hRun
  | timedOut => exact absurd rfl hTime
  | @ended r _ hSteps _ hFinal =>
      have hRest := Simulator.finalize_rest hFinal
      exact ⟨r, hSteps, (congrArg Pipeline.status hRest).symm, hRest⟩

namespace Simulator

variable {p q r : Pipeline} {budget : Int}

/-! The three cases of a clock cycle. -/

/-- After the end a clock cycle is refused. -/
theorem advance_of_finished (hEnd : p.status.finished = true) :
    advance budget p = (.error (.halted p.status), p) := by
  unfold advance
  rw [if_pos hEnd]

/-- A run that has used up its budget times out. -/
theorem advance_timeout (hRun : p.status.finished = false) (hBudget : budget ≤ p.cycle) :
    advance budget p = (.ok (), p.timeout) := by
  unfold advance
  rw [if_neg (by simp [hRun]), if_pos hBudget]
  dsimp only
  rw [if_pos (by rfl)]
  unfold finalize
  split
  · rw [if_pos (by rfl)]
  · rfl

/-- A run that has not ticks. -/
theorem advance_within (hRun : p.status.finished = false) (hWithin : p.cycle < budget) :
    advance budget p =
      match p.tick with
      | (.error f, q) => (.error f, q)
      | (.ok (), q) => if q.status.finished then finalize q else (.ok (), q) := by
  unfold advance
  rewrite [if_neg (by simp [hRun]), if_neg (by omega)]
  rfl

/-- A clock cycle is a tick, with the last differences on record at the end, unless the time is up or
the run is over. -/
theorem advance_cases (budget : Int) (p : Pipeline) :
    (p.status.finished = true ∧ (advance budget p).2 = p) ∨
    (p.status.finished = false ∧ budget ≤ p.cycle ∧ (advance budget p).2 = p.timeout) ∨
    (p.status.finished = false ∧ ¬budget ≤ p.cycle ∧
      ((advance budget p).2 = p.tick.2 ∨ p.tick.2.status.finished = true ∧
        ∃ mismatches, (advance budget p).2 = p.tick.2.differing mismatches)) := by
  cases hRun : p.status.finished with
  | true => exact .inl ⟨rfl, by rw [advance_of_finished hRun]⟩
  | false =>
      right
      by_cases hBudget : budget ≤ p.cycle
      · exact .inl ⟨rfl, hBudget, by rw [advance_timeout hRun hBudget]⟩
      · refine .inr ⟨rfl, hBudget, ?_⟩
        rw [advance_within hRun (Int.not_le.mp hBudget)]
        rcases p.tick with ⟨result, q⟩
        cases result with
        | error f => exact .inl rfl
        | ok u =>
            dsimp only
            split
            · rename_i hEnd
              exact .inr ⟨hEnd, finalize_differing q⟩
            · exact .inl rfl

/-- What holds on after a tick, after a timeout and, once a run is over, with differences on record,
holds on after a clock cycle, whether it fails or not. -/
theorem advance_keeps {P : Pipeline → Prop} (h : P p)
    (hTick : p.status.finished = false → P p.tick.2)
    (hTimeout : p.status.finished = false → P p.timeout)
    (hDiffers : ∀ q mismatches, q.status.finished = true → P q → P (q.differing mismatches))
    (budget : Int) : P (advance budget p).2 := by
  rcases advance_cases budget p with
    ⟨-, hSame⟩ | ⟨hRun, -, hLate⟩ | ⟨hRun, -, hNext | ⟨hEnd, mismatches, hNext⟩⟩
  · rw [hSame]
    exact h
  · rw [hLate]
    exact hTimeout hRun
  · rw [hNext]
    exact hTick hRun
  · rw [hNext]
    exact hDiffers _ _ hEnd (hTick hRun)

/-- One clock cycle that does not fail. -/
theorem advance_runState (h : Steps p q) (hRun : q.status.finished = false)
    (hAdvance : advance budget q = (.ok (), r)) :
    RunState p r ∧ (r.status.finished = false → Steps p r) := by
  by_cases hBudget : budget ≤ q.cycle
  · rw [advance_timeout hRun hBudget] at hAdvance
    cases hAdvance
    exact ⟨.timedOut h hRun, nofun⟩
  · rw [advance_within hRun (Int.not_le.mp hBudget)] at hAdvance
    rcases hTick : q.tick with ⟨result, q'⟩
    rw [hTick] at hAdvance
    cases result with
    | error f => cases hAdvance
    | ok u =>
        dsimp only at hAdvance
        have hSteps := h.tick hRun hTick
        split at hAdvance
        · rename_i hEnd
          refine ⟨.ended hSteps hEnd hAdvance, fun hOpen => ?_⟩
          have hStatus : r.status = q'.status := by rw [finalize_rest hAdvance]
          rw [hStatus, hEnd] at hOpen
          cases hOpen
        · rename_i hOpen
          cases hAdvance
          exact ⟨.underWay hSteps (by simpa using hOpen), fun _ => hSteps⟩

/-- Nothing is left to do once a run is over. -/
theorem advanceToEnd_of_finished (fuel : Nat) (h : q.status.finished = true) :
    advanceToEnd budget fuel q = (.ok (), q) := by
  cases fuel with
  | zero => rfl
  | succ fuel =>
      unfold advanceToEnd
      rw [if_pos h]

/-- A run that has ended within its budget does not use more of a larger one. -/
theorem advanceToEnd_mono {budget' : Int} (hMore : budget ≤ budget') {fuel fuel' : Nat}
    (hFuel : fuel ≤ fuel') (hRun : advanceToEnd budget fuel p = (.ok (), q))
    (hEnd : q.status.finished = true) (hTime : q.status ≠ .timeout) :
    advanceToEnd budget' fuel' p = (.ok (), q) := by
  induction fuel generalizing p fuel' with
  | zero =>
      cases hRun
      exact advanceToEnd_of_finished fuel' hEnd
  | succ fuel ih =>
      cases hOpen : p.status.finished with
      | true =>
          rw [advanceToEnd_of_finished _ hOpen] at hRun ⊢
          exact hRun
      | false =>
          obtain ⟨fuel', rfl⟩ : ∃ n, fuel' = n + 1 := ⟨fuel' - 1, by omega⟩
          have hLess : p.cycle < budget := by
            apply Int.not_le.mp
            intro hSpent
            unfold advanceToEnd at hRun
            rw [if_neg (by simp [hOpen]), advance_timeout hOpen hSpent] at hRun
            dsimp only at hRun
            rw [advanceToEnd_of_finished fuel (by rfl)] at hRun
            cases hRun
            exact hTime rfl
          have hSame : advance budget' p = advance budget p := by
            rw [advance_within hOpen hLess, advance_within hOpen (by omega)]
          unfold advanceToEnd at hRun ⊢
          rw [hSame]
          rw [if_neg (by simp [hOpen])] at hRun ⊢
          rcases hAdvance : advance budget p with ⟨result, q'⟩
          rw [hAdvance] at hRun
          cases result with
          | error f => cases hRun
          | ok u => exact ih (Nat.le_of_succ_le_succ hFuel) hRun

/-- A run that ends within its budget ends alike with a larger one. -/
theorem run_mono {s s' : Simulator} {maxCycles maxCycles' : Option Int}
    (hMore : maxCycles.getD s.config.maxCycles ≤ maxCycles'.getD s.config.maxCycles)
    (h : s.run maxCycles = (.ok (), s')) (hEnd : s'.status.finished = true)
    (hTime : s'.status ≠ .timeout) : s.run maxCycles' = (.ok (), s') := by
  obtain ⟨hRun, hSame⟩ := advanceToEnd_of_run h
  rw [hSame]
  exact run_of_advanceToEnd (advanceToEnd_mono hMore (by omega) hRun hEnd hTime)

/-- Running on from a state of a run comes to a state of the run. -/
theorem advanceToEnd_runState (fuel : Nat) (h : Steps p q) (hRun : q.status.finished = false)
    (hEnd : advanceToEnd budget fuel q = (.ok (), r)) : RunState p r := by
  induction fuel generalizing q with
  | zero =>
      cases hEnd
      exact .underWay h hRun
  | succ fuel ih =>
      unfold advanceToEnd at hEnd
      rw [if_neg (by simp [hRun])] at hEnd
      rcases hAdvance : advance budget q with ⟨result, q'⟩
      rw [hAdvance] at hEnd
      cases result with
      | error f => cases hEnd
      | ok u =>
          obtain ⟨hState, hSteps⟩ := advance_runState h hRun hAdvance
          by_cases hOpen : q'.status.finished = false
          · exact ih (hSteps hOpen) hOpen hEnd
          · dsimp only at hEnd
            rw [advanceToEnd_of_finished fuel (by simpa using hOpen)] at hEnd
            cases hEnd
            exact hState

/-- What a run returns is a state of the run. -/
theorem run_runState {c : Config} {program : Image} {data : List (Int × List Int)}
    {maxCycles : Option Int} {s : Simulator}
    (h : (loaded c program data).run maxCycles = (.ok (), s)) :
    RunState (build c program data) s.pipeline := by
  obtain ⟨hEnd, -⟩ := advanceToEnd_of_run h
  rw [loaded_pipeline] at hEnd
  refine advanceToEnd_runState _ .refl ?_ hEnd
  rw [build_eq]
  rfl

end Simulator

end AccelPipe

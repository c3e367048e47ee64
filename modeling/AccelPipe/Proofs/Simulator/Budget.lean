import AccelPipe.Proofs.Pipeline.Touched
import AccelPipe.Proofs.Reference.Ends
import AccelPipe.Proofs.Simulator.Reload
import AccelPipe.Proofs.Simulator.Runs

/-! A run with a budget of cycles. It ticks until it ends by itself, or has no cycles left, or has a
tick that fails, and which of them comes first is settled by the state in which it starts. -/
namespace AccelPipe

open Pipeline

/-- A pipeline whose memory can be compared, with no timeout on record before the run is over. -/
structure Pipeline.InTime (p : Pipeline) : Prop where
  sound : p.memory.Sound
  untimed : p.status.finished = false → ∀ f ∈ p.faultLog, f.kind ≠ .timeout

namespace Simulator

variable {s : Simulator} {p q : Pipeline} {budget : Int}

theorem inTime_build {c : Config} (hValid : c.Valid) (program : Image)
    (data : List (Int × List Int)) : (build c program data).InTime := by
  rw [build_eq]
  exact ⟨(Memory.sound_fresh hValid).loadAll data, fun _ => nofun⟩

theorem inTime_advance (h : p.InTime) (budget : Int) : (advance budget p).2.InTime := by
  refine advance_keeps h (fun hRun => ⟨sound_tick h.sound, fun _ => ?_⟩) (fun _ => ⟨h.sound, nofun⟩)
    (fun q mismatches hEnd hOld => ⟨hOld.sound, fun hRun => ?_⟩) budget
  · exact p.addsFaults_tick.untimed (h.untimed hRun)
  · cases hEnd.symm.trans hRun

theorem inTime_advanceToEnd (h : p.InTime) (budget : Int) (fuel : Nat) :
    (advanceToEnd budget fuel p).2.InTime := by
  induction fuel generalizing p with
  | zero => exact h
  | succ fuel ih =>
      unfold advanceToEnd
      split
      · exact h
      · have hNext := inTime_advance h budget
        rcases hAdvance : advance budget p with ⟨result, q⟩
        rw [hAdvance] at hNext
        cases result with
        | error f => exact hNext
        | ok u => exact ih hNext

/-- Whatever has been done with a simulator. -/
theorem Handled.inTime (h : Handled s) : s.pipeline.InTime := by
  induction h with
  | fresh hAccepted => exact inTime_build hAccepted.toValid _ _
  | @load s hHandled program pc ih =>
      have hAccepted := accepted_load hHandled.accepted program pc
      unfold Simulator.load at hAccepted ⊢
      dsimp only at hAccepted ⊢
      split
      · exact ih
      · rename_i hConfig
        rw [hConfig] at hAccepted
        exact inTime_build hAccepted.toValid _ _
  | preload _ addr words ih => exact ⟨ih.sound.load addr words, ih.untimed⟩
  | tick _ ih => exact inTime_advance ih _
  | run _ maxCycles ih =>
      unfold Simulator.run onPipeline
      exact inTime_advanceToEnd ih _ _
  | reset hHandled _ => exact inTime_build hHandled.accepted.toValid _ _

/-- The comparison at the end does not fail. -/
theorem finalize_of_sound (h : p.memory.Sound) : finalize p = (.ok (), (finalize p).2) := by
  unfold finalize
  split
  · split
    · rfl
    · unfold Reference.compareFinal
      rw [if_pos (Reference.all_fits64 fun _ => Memory.snapshot_word h)]
  · rfl

/-- What a run with a budget comes to. -/
inductive RunEnd (budget : Int) (p : Pipeline) : Except Failure Unit × Pipeline → Prop
  | ended {q : Pipeline} (h : Steps p q) (hEnd : q.status.finished = true)
      (hWithin : q.cycle ≤ budget) : RunEnd budget p (.ok (), (finalize q).2)
  | timedOut {q : Pipeline} (h : Steps p q) (hRun : q.status.finished = false)
      (hSpent : q.cycle = max budget p.cycle) : RunEnd budget p (.ok (), q.timeout)
  | failed {q r : Pipeline} {f : Failure} (h : Steps p q) (hRun : q.status.finished = false)
      (hWithin : q.cycle < budget) (hTick : q.tick = (.error f, r)) : RunEnd budget p (.error f, r)

namespace RunEnd

/-- A tick before. -/
theorem behind {result : Except Failure Unit × Pipeline} (hRun : p.status.finished = false)
    (hLess : p.cycle < budget) (hTick : p.tick = (.ok (), q)) (h : RunEnd budget q result) :
    RunEnd budget p result := by
  have hFirst : Steps p q := .tick .refl hRun hTick
  cases h with
  | ended hSteps hEnd hWithin => exact .ended (hFirst.trans hSteps) hEnd hWithin
  | timedOut hSteps hOpen hSpent =>
      refine .timedOut (hFirst.trans hSteps) hOpen ?_
      rw [hSpent, (tick_ok hTick).1]
      omega
  | failed hSteps hOpen hWithin hFails => exact .failed (hFirst.trans hSteps) hOpen hWithin hFails

end RunEnd

/-- A run with enough fuel for its budget. -/
theorem runEnd_advanceToEnd (hSound : p.memory.Sound) (hRun : p.status.finished = false)
    {fuel : Nat} (hFuel : (budget - p.cycle).toNat < fuel) :
    RunEnd budget p (advanceToEnd budget fuel p) := by
  induction fuel generalizing p with
  | zero => exact absurd hFuel (Nat.not_lt_zero _)
  | succ fuel ih =>
      unfold advanceToEnd
      rw [if_neg (by simp [hRun])]
      by_cases hSpent : budget ≤ p.cycle
      · rw [advance_timeout hRun hSpent]
        dsimp only
        rw [advanceToEnd_of_finished fuel (by rfl)]
        exact .timedOut .refl hRun (by omega)
      · rw [advance_within hRun (Int.not_le.mp hSpent)]
        rcases hTick : p.tick with ⟨result, q⟩
        cases result with
        | error f => exact .failed .refl hRun (Int.not_le.mp hSpent) hTick
        | ok u =>
            have hSteps : Steps p q := .tick .refl hRun hTick
            have hCycle := (tick_ok hTick).1
            dsimp only
            cases hOpen : q.status.finished with
            | true =>
                rw [if_pos rfl, finalize_of_sound (hSteps.sound hSound)]
                dsimp only
                rw [advanceToEnd_of_finished fuel (by rw [finalize_faultLog]; exact hOpen)]
                exact .ended hSteps hOpen (by omega)
            | false =>
                rw [if_neg (by simp)]
                exact (ih (hSteps.sound hSound) hOpen (by omega)).behind hRun
                  (Int.not_le.mp hSpent) hTick

/-- A run with a budget goes on no further than a state. -/
def Stops (budget : Int) (p q : Pipeline) : Prop :=
  Steps p q ∧ q.cycle ≤ max budget p.cycle ∧
    ∀ r, q.status.finished = false → q.tick = (.ok (), r) → q.cycle = max budget p.cycle

theorem Stops.eq_of_steps {q' : Pipeline} (h : Stops budget p q) (h' : Stops budget p q')
    (hSteps : Steps q q') : q = q' := by
  rcases hSteps.head with hSame | ⟨r, hRun, hTick, hRest⟩
  · exact hSame
  · have hLast := h.2.2 r hRun hTick
    have hNext := (tick_ok hTick).1
    have hLater := hRest.cycle_le
    have hBound := h'.2.1
    omega

theorem Stops.unique {q' : Pipeline} (h : Stops budget p q) (h' : Stops budget p q') :
    q = q' := by
  rcases h.1.linear h'.1 with hSteps | hSteps
  · exact h.eq_of_steps h' hSteps
  · exact (h'.eq_of_steps h hSteps).symm

/-- What becomes of a state at which a run stops. -/
def stopped (budget : Int) (q : Pipeline) : Except Failure Unit × Pipeline :=
  if q.status.finished then (.ok (), (finalize q).2) else advance budget q

theorem RunEnd.stops {result : Except Failure Unit × Pipeline} (h : RunEnd budget p result) :
    ∃ q, Stops budget p q ∧ result = stopped budget q := by
  cases h with
  | @ended q hSteps hEnd hWithin =>
      refine ⟨q, ⟨hSteps, by omega, fun _ hRun => ?_⟩, ?_⟩
      · cases hEnd.symm.trans hRun
      · unfold stopped
        rw [if_pos hEnd]
  | @timedOut q hSteps hRun hSpent =>
      refine ⟨q, ⟨hSteps, Int.le_of_eq hSpent, fun _ _ _ => hSpent⟩, ?_⟩
      unfold stopped
      rw [if_neg (by simp [hRun]), advance_timeout hRun (by omega)]
  | @failed q r f hSteps hRun hWithin hTick =>
      refine ⟨q, ⟨hSteps, by omega, fun _ _ hOk => ?_⟩, ?_⟩
      · cases hTick.symm.trans hOk
      · unfold stopped
        rw [if_neg (by simp [hRun]), advance_within hRun hWithin, hTick]

/-- A run has one end. -/
theorem RunEnd.unique {result result' : Except Failure Unit × Pipeline}
    (h : RunEnd budget p result) (h' : RunEnd budget p result') : result = result' := by
  obtain ⟨q, hStops, rfl⟩ := h.stops
  obtain ⟨q', hStops', rfl⟩ := h'.stops
  rw [hStops.unique hStops']

theorem RunEnd.finished {result : Except Failure Unit × Pipeline} (h : RunEnd budget p result)
    (hOk : result.1 = .ok ()) : result.2.status.finished = true := by
  cases h with
  | @ended q _ hEnd _ =>
      rw [finalize_faultLog]
      exact hEnd
  | timedOut => rfl
  | failed => cases hOk

/-- A run that does not end within its budget times out. -/
theorem RunEnd.timedOut_of_late {result : Except Failure Unit × Pipeline}
    (h : RunEnd budget p result) (hOk : result.1 = .ok ())
    (hLate : ∀ q, Steps p q → q.status.finished = true → budget < q.cycle) :
    ∃ q, Steps p q ∧ q.status.finished = false ∧ q.cycle = max budget p.cycle ∧
      result.2 = q.timeout := by
  cases h with
  | ended hSteps hEnd hWithin => exact absurd hWithin (Int.not_le.mpr (hLate _ hSteps hEnd))
  | @timedOut q hSteps hRun hSpent => exact ⟨q, hSteps, hRun, hSpent, rfl⟩
  | failed => cases hOk

/-! Runs of a simulator. -/

/-- No tick of the run fails before a cycle. -/
def Unfailing (s : Simulator) (budget : Int) : Prop :=
  ∀ q, Steps s.pipeline q → q.status.finished = false → q.cycle < budget → q.tick.1 = .ok ()

/-- In a run that ticks end, none of them has failed. -/
theorem unfailing_of_ended (h : Steps s.pipeline q) (hEnd : q.status.finished = true)
    (budget : Int) : s.Unfailing budget := by
  intro r hSteps hRun _
  rcases h.linear hSteps with hBehind | hBefore
  · rw [hBehind.eq_of_finished hEnd, hRun] at hEnd
    cases hEnd
  · rcases hBefore.head with hSame | ⟨_, -, hTick, -⟩
    · rw [hSame, hEnd] at hRun
      cases hRun
    · rw [hTick]

theorem runEnd_run (h : s.pipeline.InTime) (hRun : s.status.finished = false)
    (maxCycles : Option Int) :
    RunEnd (maxCycles.getD s.config.maxCycles) s.pipeline
      ((s.run maxCycles).1, (s.run maxCycles).2.pipeline) :=
  runEnd_advanceToEnd h.sound hRun (Nat.lt_succ_self _)

/-- A run fails only with one of its ticks. -/
theorem run_ok_iff (h : s.pipeline.InTime) (hRun : s.status.finished = false)
    (maxCycles : Option Int) :
    (s.run maxCycles).1 = .ok () ↔ s.Unfailing (maxCycles.getD s.config.maxCycles) := by
  have hComes := runEnd_run h hRun maxCycles
  constructor
  · intro hOk q hSteps hOpen hWithin
    rcases hTick : q.tick with ⟨result, r⟩
    cases result with
    | ok u => rfl
    | error f =>
        have hSame := congrArg Prod.fst (hComes.unique (.failed hSteps hOpen hWithin hTick))
        cases hOk.symm.trans hSame
  · intro hUnfailing
    generalize (s.run maxCycles).1 = result, (s.run maxCycles).2.pipeline = p at hComes ⊢
    cases hComes with
    | ended => rfl
    | timedOut => rfl
    | failed hSteps hOpen hWithin hTick =>
        have hOk := hUnfailing _ hSteps hOpen hWithin
        rw [hTick] at hOk
        cases hOk

/-- A run with a budget, as seen from the ticks of a run without one. -/
structure KeepsBudget (s : Simulator) (budget : Int) (t : Simulator) : Prop where
  finished : t.status.finished = true
  /-- If ticks end the run, it ends with their status exactly if the budget reaches so far, and then
  in the same state whatever the budget. -/
  ended : ∀ q, Steps s.pipeline q → q.status.finished = true →
    (t.status = q.status ↔ q.cycle ≤ budget) ∧
      (q.cycle ≤ budget → t = { s with pipeline := (finalize q).2 })
  /-- Otherwise it times out after as many ticks as the budget allows. Nothing is added to what they
  have done but the one fault that tells so. -/
  timedOut : (∀ q, Steps s.pipeline q → q.status.finished = true → budget < q.cycle) →
    ∃ q, Steps s.pipeline q ∧ q.status.finished = false ∧ q.cycle = max budget s.cycle ∧
      t = { s with pipeline := q.timeout } ∧ t.pipeline.faultsOf .timeout = 1

/-- A timeout is one more fault. -/
theorem faultsOf_timeout (h : ∀ f ∈ p.faultLog, f.kind ≠ .timeout) :
    p.timeout.faultsOf .timeout = 1 := by
  have hFaults : p.timeout.faults = p.faults ++
      [⟨.timeout, p.cycle, p.pc.getD 0, "no exit after " ++ Text.decimal p.cycle ++ " cycles"⟩] :=
    List.reverse_cons
  have hNone : ∀ f ∈ p.faults, f.kind ≠ .timeout := fun f hHeld => h f (List.mem_reverse.mp hHeld)
  rw [faultsOf_append hFaults]
  unfold faultsOf
  rw [countP_kind hNone]
  rfl

/-- A run with a budget, none of whose ticks fails. -/
theorem run_keepsBudget (h : s.pipeline.InTime) (hRun : s.status.finished = false)
    (hUnfailing : s.Unfailing budget) :
    ∃ t, s.run (some budget) = (.ok (), t) ∧ s.KeepsBudget budget t := by
  obtain ⟨t, hT, hRest, hComes⟩ : ∃ t, s.run (some budget) = (.ok (), t) ∧
      t = { s with pipeline := t.pipeline } ∧ RunEnd budget s.pipeline (.ok (), t.pipeline) := by
    have hOk := (run_ok_iff h hRun (some budget)).mpr hUnfailing
    have hComes := runEnd_run h hRun (some budget)
    rw [hOk] at hComes
    exact ⟨(s.run (some budget)).2, by rw [← hOk], rfl, hComes⟩
  refine ⟨t, hT, hComes.finished rfl, fun q hSteps hEnd => ?_, fun hLate => ?_⟩
  · have hWhole : q.cycle ≤ budget → t.pipeline = (finalize q).2 := fun hWithin =>
      congrArg Prod.snd (hComes.unique (.ended hSteps hEnd hWithin))
    refine ⟨⟨fun hStatus => ?_, fun hWithin => ?_⟩, fun hWithin => ?_⟩
    · by_contra hBeyond
      have hLate : ∀ r, Steps s.pipeline r → r.status.finished = true → budget < r.cycle := by
        intro r hOther hOver
        rw [hOther.end_unique hSteps hOver hEnd]
        exact Int.not_le.mp hBeyond
      obtain ⟨r, -, -, -, hTimeout⟩ := hComes.timedOut_of_late rfl hLate
      exact hSteps.ne_timeout hRun (hStatus.symm.trans (congrArg Pipeline.status hTimeout))
    · unfold status
      rw [hWhole hWithin, finalize_faultLog]
    · rw [hRest, hWhole hWithin]
  · obtain ⟨q, hSteps, hOpen, hSpent, hTimeout⟩ := hComes.timedOut_of_late rfl hLate
    have hTimeout : t.pipeline = q.timeout := hTimeout
    refine ⟨q, hSteps, hOpen, hSpent, by rw [hRest, hTimeout], ?_⟩
    rw [hTimeout]
    exact faultsOf_timeout (hSteps.addsFaults.untimed (h.untimed hRun))

/-- A run that has ended by itself ends alike with every budget that reaches so far. -/
theorem run_of_ended (h : s.pipeline.InTime) (hRun : s.status.finished = false)
    {maxCycles maxCycles' : Option Int} {t : Simulator} (hT : s.run maxCycles = (.ok (), t))
    (hTime : t.status ≠ .timeout) (hWithin : t.cycle ≤ maxCycles'.getD s.config.maxCycles) :
    s.run maxCycles' = (.ok (), t) := by
  have hComes := runEnd_run h hRun maxCycles
  rw [hT] at hComes
  obtain ⟨q, hSteps, hEnd, hFinal⟩ : ∃ q, Steps s.pipeline q ∧ q.status.finished = true ∧
      t.pipeline = (finalize q).2 := by
    generalize hEnds : t.pipeline = p at hComes
    cases hComes with
    | ended hSteps hEnd _ => exact ⟨_, hSteps, hEnd, rfl⟩
    | timedOut => exact absurd (congrArg Pipeline.status hEnds) hTime
  have hCycle : t.cycle = q.cycle := by
    unfold cycle
    rw [hFinal, finalize_faultLog]
  rw [hCycle] at hWithin
  obtain ⟨t', hT', hKeeps⟩ := run_keepsBudget h hRun (unfailing_of_ended hSteps hEnd
    (maxCycles'.getD s.config.maxCycles))
  rw [(hKeeps.ended q hSteps hEnd).2 hWithin, ← hFinal] at hT'
  have hRest : (s.run maxCycles).2 = { s with pipeline := (s.run maxCycles).2.pipeline } := rfl
  rw [hT] at hRest
  exact hT'.trans (congrArg (Prod.mk _) hRest.symm)

end Simulator

end AccelPipe

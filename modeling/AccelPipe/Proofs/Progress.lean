import AccelPipe.Proofs.Pipeline.Pace
import AccelPipe.Proofs.Simulator.Compared

/-! No run is lost. A program whose sequential execution ends also ends in the pipeline, within a
number of cycles that grows with the number of instructions only. -/
namespace AccelPipe

open Pipeline

/-- The ticks that the slowest accelerator or a memory access takes. -/
def Config.slowest (c : Config) : Nat :=
  max c.memLatency (max ((Units.fresh c).latency .conv2d)
    (max ((Units.fresh c).latency .fir) ((Units.fresh c).latency .pool)))

/-- The cycles from one commit to the next at most. -/
def Config.patience (c : Config) : Nat := 5 * (c.slowest + 1)

/-- No instruction of a unit takes longer than the slowest one. -/
theorem Config.Valid.beats_le {c : Config} (h : c.Valid) (ins : Instruction) :
    (Units.fresh c).beats ins ≤ c.slowest := by
  have hLatency := h.memLatency
  unfold Config.slowest Units.beats
  split
  · rename_i acc _
    cases acc with
    | mac | relu =>
        change 1 ≤ _
        omega
    | conv2d | fir | pool => omega
  · omega

/-- Only the memory, the slots and the cycle matter for the time that is left. -/
theorem Paced.of_eq {limit latency now : Nat} {p q : Pipeline} {slots : Slots}
    (h : Paced limit latency p (now + 1) slots) (hMemory : q.memory = p.memory)
    (hSlots : q.slots = slots) (hCycle : q.cycle = now + 1) :
    Paced limit latency q q.cycle q.slots := by
  rw [hSlots, hCycle]
  refine ⟨?_, h.memory, h.execute⟩
  rw [hMemory]
  exact h.timed

/-- A run whose oldest instruction is committed before its time is up. -/
structure Prospering (limit latency : Nat) (p : Pipeline) : Prop where
  paced : Paced limit latency p p.cycle p.slots
  near : ∃ wait ≤ limit, p.memory.Timed latency (p.cycle + wait) ∧
    p.cycle + distance limit wait p.slots + 1 ≤ 5 * (limit + 1) * (p.retired + 1)

namespace Prospering

variable {a : Machine} {p q : Pipeline} {limit latency : Nat}

/-- A run that goes on keeps to its time. -/
theorem tick (h : Prospering limit latency p) (hSound : a.Sound)
    (hBeats : ∀ ins, a.units.beats ins ≤ limit) (hOne : 1 ≤ latency) (hLatency : latency ≤ limit)
    (hReached : Reached a p) (hRun : p.status.finished = false) (hTick : p.tick = (.ok (), q))
    (hOpen : q.status.finished = false) : Prospering limit latency q ∧ q.cycle = p.cycle + 1 := by
  obtain ⟨n, hRetired, hHalted, hFollows⟩ := hReached.live hRun
  obtain ⟨m₁, m₂, m₃, free₁, free₂, free₃, control, commit, hRound⟩ := hFollows.round hRun
  obtain ⟨wait, hWait, hTimed, hTime⟩ := h.near
  have hBeats' : ∀ ins, (Machine.after n a).units.beats ins ≤ limit := by
    intro ins
    rw [Units.beats_eq_of_frame (Machine.after_frame hSound n)]
    exact hBeats ins
  have hStaged := hRound.staged hFollows
  have hCase := hRound.tick hFollows
  rw [hTick] at hCase
  generalize hMaking : madeFetch m₃ p.slots.fetch free₃ control = m at hStaged hCase
  obtain ⟨hPaced, hNearer⟩ := hRound.nearer hFollows hHalted hBeats' hOne hLatency h.paced hTimed
    hWait hMaking
  have hMore : 5 * (limit + 1) * (p.retired + 1 + 1) =
      5 * (limit + 1) * (p.retired + 1) + (5 * limit + 5) := by
    rw [Nat.mul_succ]
    omega
  cases hCase with
  | idle hWb hRest hGrave =>
      obtain ⟨wait', hLess, hPorts, hDistance⟩ := hNearer hWb
      have hCycle : q.cycle = p.cycle + 1 := by rw [hRest]
      have hSlots : q.slots = m.next := by rw [hRest]
      have hMemory : q.memory = m.pipeline.memory := by rw [hRest]
      have hCount : q.retired = p.retired := by
        rw [hRest]
        exact hStaged.retired
      refine ⟨⟨hPaced.of_eq hMemory hSlots hCycle, wait', hLess, ?_, ?_⟩, hCycle⟩
      · rw [hMemory]
        exact hPorts.mono (by omega)
      · rw [hCycle, hSlots, hCount]
        omega
  | @retires _ c mismatches reference hWb hCommit hAt hKind hCompared hRest hGrave =>
      have hCycle : q.cycle = p.cycle + 1 := by rw [hRest]
      have hMemory : q.memory = m.pipeline.memory := by rw [hRest]
      have hCount : q.retired = p.retired + 1 := by rw [hRest]
      have hStatus : q.status = statusAfter (Machine.after n a).instruction.kind .running := by
        rw [hRest]
      have hSlots : q.slots = m.next := by
        rcases after_cases hKind with ⟨-, hNextSlots, -⟩ | ⟨-, -, -, hNextStatus⟩
        · rw [hRest]
          exact hNextSlots m.next
        · rw [hStatus, hNextStatus] at hOpen
          cases hOpen
      have hNext : Paced limit latency q q.cycle q.slots := hPaced.of_eq hMemory hSlots hCycle
      have hBound := hNext.distance_le (Nat.le_refl limit)
      rw [distance_of_writeback hWb] at hTime
      refine ⟨⟨hNext, limit, Nat.le_refl limit, hNext.timed, ?_⟩, hCycle⟩
      rw [hCount, hMore]
      omega
  | illegal hWb hKind hRest hGrave hFault hPc =>
      have hStatus : q.status = .illegalInstruction := by rw [hRest]
      rw [hStatus] at hOpen
      cases hOpen

end Prospering

/-- A tick does not make a run time out. -/
theorem Reached.tick_status {a : Machine} {p q : Pipeline} (h : Reached a p)
    (hRun : p.status.finished = false) (hTick : p.tick = (.ok (), q)) : q.status ≠ .timeout := by
  obtain ⟨n, -, -, hFollows⟩ := h.live hRun
  obtain ⟨m, hStaged, hCase⟩ := hFollows.tick hRun
  rw [hTick] at hCase
  cases hCase with
  | idle hWb hRest hGrave =>
      have hStatus : q.status = .running := by
        rw [hRest]
        exact hStaged.running
      rw [hStatus]
      nofun
  | retires hWb hCommit hAt hKind hCompared hRest hGrave =>
      have hStatus : q.status = statusAfter (Machine.after n a).instruction.kind .running := by
        rw [hRest]
      rw [hStatus]
      rcases after_cases hKind with ⟨-, -, hNextStatus⟩ | ⟨-, -, -, hNextStatus⟩ <;>
        rw [hNextStatus] <;> nofun
  | illegal hWb hKind hRest hGrave hFault hPc =>
      have hStatus : q.status = .illegalInstruction := by rw [hRest]
      rw [hStatus]
      nofun

namespace Simulator

variable {a : Machine} {r : Reference} {n limit latency : Nat} {checks : Bool}

/-- A run that prospers comes to its end within its budget. -/
theorem advanceToEnd_ends (hStep : InStep r a) (hExact : r.Exact (n + 1))
    (hEnds : ending (Machine.after n a).instruction.kind ≠ none)
    (hBeats : ∀ ins, a.units.beats ins ≤ limit) (hOne : 1 ≤ latency) (hLatency : latency ≤ limit)
    {budget : Int} (hBudget : ((5 * (limit + 1) * (n + 1) : Nat) : Int) ≤ budget) (fuel : Nat)
    {p : Pipeline} (hCompared : Compared checks r p) (hReached : Reached a p)
    (hProspering : Prospering limit latency p) (hRun : p.status.finished = false)
    (hFuel : 5 * (limit + 1) * (n + 1) ≤ p.cycle + fuel) :
    ∃ q, advanceToEnd budget fuel p = (.ok (), q) ∧ q.status.finished = true ∧
      q.status ≠ .timeout ∧ Reached a q ∧ Compared checks r q := by
  have hTime : ∀ {p : Pipeline}, Reached a p → Prospering limit latency p →
      p.status.finished = false → p.retired ≤ n ∧ p.cycle < 5 * (limit + 1) * (n + 1) := by
    intro p hReached hProspering hRun
    obtain ⟨k, hRetired, -⟩ := hReached.live hRun
    obtain ⟨wait, -, -, hNear⟩ := hProspering.near
    have hLess : p.retired ≤ n := by
      apply Nat.le_of_not_lt
      intro hBeyond
      rw [hRetired.retired] at hBeyond
      exact hEnds (hRetired.runs n hBeyond)
    have hScaled : 5 * (limit + 1) * (p.retired + 1) ≤ 5 * (limit + 1) * (n + 1) :=
      Nat.mul_le_mul_left _ (Nat.succ_le_succ hLess)
    exact ⟨hLess, by omega⟩
  induction fuel generalizing p with
  | zero =>
      have hCycle := (hTime hReached hProspering hRun).2
      omega
  | succ fuel ih =>
      obtain ⟨hLess, hCycle⟩ := hTime hReached hProspering hRun
      obtain ⟨q, hTick, hAdvance, hNext, hStill, -⟩ := advance_tick hCompared hStep
        (hExact.mono (Nat.succ_le_succ hLess)) hReached hRun (show (p.cycle : Int) < budget by omega)
      have hGoes : advanceToEnd budget (fuel + 1) p = advanceToEnd budget fuel q := by
        rw [advanceToEnd, if_neg (by simp [hRun]), hAdvance]
      rw [hGoes]
      cases hOpen : q.status.finished with
      | true =>
          exact ⟨q, advanceToEnd_of_finished fuel hOpen, hOpen, hReached.tick_status hRun hTick,
            hNext, hStill⟩
      | false =>
          obtain ⟨hOn, hOne'⟩ := hProspering.tick hStep.sound hBeats hOne hLatency hReached hRun
            hTick hOpen
          exact ih hStill hNext hOn hOpen (by omega)

end Simulator

/-- At the start of a run nothing is under way. -/
theorem Config.Valid.prospering_build {c : Config} (h : c.Valid) (program : Image)
    (data : List (Int × List Int)) :
    Prospering c.slowest c.memLatency (Simulator.build c program data) := by
  have hTimed : ((Memory.fresh c).loadAll data).Timed c.memLatency (c.slowest : Int) :=
    ((Memory.timed_fresh h).loadAll data).mono (Int.natCast_nonneg _)
  rw [Simulator.build_eq]
  refine ⟨⟨?_, ?_, ?_⟩, c.slowest, Nat.le_refl _, ?_, ?_⟩
  · exact hTimed.mono (by omega)
  · intro s hSlot
    cases hSlot
  · intro s hSlot
    cases hSlot
  · exact hTimed.mono (by omega)
  · change 0 + (5 * c.slowest + 4) + 1 ≤ 5 * (c.slowest + 1) * (0 + 1)
    omega

/-- An instruction that ends the run has no window. -/
theorem Reference.Exact.succ {r : Reference} {n : Nat} (h : r.Exact n)
    (hEnds : ending (Reference.after n r).instruction.kind ≠ none) : r.Exact (n + 1) := by
  intro i hLess hRuns
  rcases Nat.lt_succ_iff_lt_or_eq.mp hLess with hBefore | rfl
  · exact h i hBefore hRuns
  · intro hKind
    rw [hKind] at hEnds
    exact absurd rfl hEnds

/-- The only decoding fault of a run is the illegal instruction that has ended it. -/
theorem Compared.decode_faults {checks : Bool} {r : Reference} {p : Pipeline}
    (h : Compared checks r p) (hStatus : p.status = .illegalInstruction) :
    ∃ f, (p.faults.filter fun f => f.kind = .decode) = [f] ∧
      f.pc = (Reference.after p.retired r).expectedPc := by
  obtain ⟨f, hGrave, hDecode, hPc⟩ := h.fault hStatus
  refine ⟨f, ?_, hPc⟩
  have hFilter : (p.faultLog.filter fun f => f.kind = .decode) =
      p.grave.filter fun f => f.kind = .decode := by
    unfold Pipeline.grave
    rw [List.filter_filter]
    refine List.filter_congr fun f _ => ?_
    cases f.kind <;> rfl
  unfold Pipeline.faults
  rw [List.filter_reverse, hFilter, hGrave, List.filter_cons, if_pos (decide_eq_true hDecode)]
  rfl

/-- A run that has ended has done so with the first instruction that ends it. -/
theorem Reached.ends_at {a : Machine} {p : Pipeline} {n : Nat} (h : Reached a p)
    (hRuns : a.Runs n) (hEnds : ending (Machine.after n a).instruction.kind ≠ none)
    (hEnd : p.status.finished = true) (hTime : p.status ≠ .timeout) :
    (Machine.after n a).instruction.kind = .system ∧ p.status = .exited ∧ p.retired = n + 1 ∨
      (Machine.after n a).instruction.kind = .illegal ∧ p.status = .illegalInstruction ∧
        p.retired = n := by
  cases h with
  | underWay _ _ _ hStatus =>
      rcases hStatus with hOpen | hTimeout
      · rw [hEnd] at hOpen
        cases hOpen
      · exact absurd hTimeout hTime
  | exited hRuns' hRetired hCommits hKind hEnded hStatus =>
      obtain rfl := hRuns.unique hRuns' hEnds (by rw [hKind]; nofun)
      exact .inl ⟨hKind, hStatus, hRetired⟩
  | illegal hRetired hKind hEnded hStatus =>
      obtain rfl := hRuns.unique hRetired.runs hEnds (by rw [hKind]; nofun)
      exact .inr ⟨hKind, hStatus, hRetired.retired⟩

namespace Simulator

variable {c : Config} {program : Image} {data : List (Int × List Int)} {n : Nat}

/-- A run with time enough ends with the instruction that ends sequential execution, and no
difference from the reference machine is found. -/
theorem run_finishes (hValid : c.Valid) (hSize : program.size < 0x40000000)
    (hExact : (c.reference program data).Exact (n + 1))
    (hEnds : ending (Machine.after n (c.machine program data)).instruction.kind ≠ none)
    {maxCycles : Option Int}
    (hBudget : ((c.patience * (n + 2) : Nat) : Int) ≤ maxCycles.getD c.maxCycles) :
    ∃ s, (loaded c program data).run maxCycles = (.ok (), s) ∧ s.status.finished = true ∧
      s.status ≠ .timeout ∧ Reached (c.machine program data) s.pipeline ∧
      Compared c.checkReference (c.reference program data) s.pipeline := by
  have hLess : 5 * (c.slowest + 1) * (n + 1) ≤ c.patience * (n + 2) :=
    Nat.mul_le_mul_left _ (Nat.le_succ _)
  have hCycle : (build c program data).cycle = 0 := by rw [build_eq]; rfl
  have hOpen : (build c program data).status.finished = false := by rw [build_eq]; rfl
  obtain ⟨q, hAdvance, hRest⟩ := advanceToEnd_ends (hValid.inStep hSize data) hExact hEnds
    hValid.beats_le hValid.memLatency (Nat.le_max_left _ _)
    (show ((5 * (c.slowest + 1) * (n + 1) : Nat) : Int) ≤ maxCycles.getD c.maxCycles by omega)
    ((maxCycles.getD c.maxCycles).toNat + 1) (c.compared_build program data)
    (hValid.reached_build program data) (hValid.prospering_build program data) hOpen (by omega)
  refine ⟨{ loaded c program data with pipeline := q }, ?_, hRest⟩
  refine run_of_advanceToEnd ?_
  rw [loaded_config, loaded_pipeline, hCycle, Int.natCast_zero, Int.sub_zero]
  exact hAdvance

/-- If sequential execution comes to an instruction that ends it, so does the pipeline, within a
budget that allows so many cycles for each instruction. The windows of accelerators must not leave
the numbers of 64 bits. -/
theorem run_ends (hValid : c.Valid) (hSize : program.size < 0x40000000)
    (hRuns : (c.reference program data).Runs n) (hExact : (c.reference program data).Exact n)
    {maxCycles : Option Int}
    (hBudget : ((c.patience * (n + 2) : Nat) : Int) ≤ maxCycles.getD c.maxCycles) :
    ((Reference.after n (c.reference program data)).instruction.kind = .system →
      ∃ s, (loaded c program data).run maxCycles = (.ok (), s) ∧ s.status = .exited ∧
        s.pipeline.retired = n + 1) ∧
    ((Reference.after n (c.reference program data)).instruction.kind = .illegal →
      ∃ s, (loaded c program data).run maxCycles = (.ok (), s) ∧
        s.status = .illegalInstruction ∧ s.pipeline.retired = n ∧
        ∃ f, (s.faults.filter fun f => f.kind = .decode) = [f] ∧
          f.pc = (Reference.after n (c.reference program data)).expectedPc) := by
  have hStep := hValid.inStep hSize data
  have hMachine := hStep.runs hExact hRuns
  have hSame := (hStep.after hExact hMachine).1.instruction_eq
  refine ⟨fun hKind => ?_, fun hKind => ?_⟩ <;>
    have hEnds : ending (Reference.after n (c.reference program data)).instruction.kind ≠ none := by
      rw [hKind]
      nofun
  · have hLast := hEnds
    rw [hSame] at hLast hKind
    obtain ⟨s, hRun, hEnd, hTime, hReached, -⟩ :=
      run_finishes hValid hSize (hExact.succ hEnds) hLast hBudget
    refine ⟨s, hRun, ?_⟩
    rcases hReached.ends_at hMachine hLast hEnd hTime with ⟨-, hStatus, hRetired⟩ | ⟨hOther, -⟩
    · exact ⟨hStatus, hRetired⟩
    · rw [hKind] at hOther
      cases hOther
  · have hLast := hEnds
    rw [hSame] at hLast hKind
    obtain ⟨s, hRun, hEnd, hTime, hReached, hCompared⟩ :=
      run_finishes hValid hSize (hExact.succ hEnds) hLast hBudget
    refine ⟨s, hRun, ?_⟩
    rcases hReached.ends_at hMachine hLast hEnd hTime with ⟨hOther, -⟩ | ⟨-, hStatus, hRetired⟩
    · rw [hKind] at hOther
      cases hOther
    · have hFaults := hCompared.decode_faults hStatus
      rw [hRetired] at hFaults
      exact ⟨hStatus, hRetired, hFaults⟩

/-- Four instructions and one that ends the run, within the budget of the configuration. -/
theorem run_ends_of_load_use :
    ∃ s, (loaded .small #[0x00500093, 0x00102023, 0x00002103, 0x00210133, 0x73] []).run none =
        (.ok (), s) ∧ s.status = .exited ∧ s.pipeline.retired = 5 := by
  have hRuns : (Config.small.reference #[0x00500093, 0x00102023, 0x00002103, 0x00210133, 0x73]
      []).Runs 4 := by
    unfold Reference.Runs
    decide +kernel
  exact (run_ends Config.valid_small (by decide) hRuns (Config.valid_small.exact _ _ (by decide))
    (by decide)).1 (by decide +kernel)

/-- Windows that leave the numbers of 64 bits take the reference machine another way than the
pipeline, so that no number of cycles for each instruction lets the pipeline end where it does. -/
theorem not_run_ends_of_wide :
    ¬ ∀ c : Config, c.Valid → ∃ patience : Nat, ∀ (program : Image) (data : List (Int × List Int))
        (n : Nat) (maxCycles : Option Int), program.size < 0x40000000 →
      (c.reference program data).Runs n →
      (∀ i < n, (Reference.after i (c.reference program data)).record ≠ none) →
      (Reference.after n (c.reference program data)).instruction.kind = .system →
      ((patience * (n + 2) : Nat) : Int) ≤ maxCycles.getD c.maxCycles →
      ∃ s, (loaded c program data).run maxCycles = (.ok (), s) ∧ s.status = .exited ∧
        s.pipeline.retired = n + 1 := by
  intro h
  obtain ⟨patience, hPatience⟩ := h .wide Config.valid_wide
  let program : Image := #[0x200313, 0x60008f, 0x200010f, 0x900193, 0x310463, 0x100213, 0x73]
  let data : List (Int × List Int) := [(0, [3, 1, 4, 1, 5, 9, 2, 6, 5, 3, 5, 8])]
  have hDone : ((loaded .wide program data).run (some 100)).1.toBool = true := by decide +kernel
  have hEnd : ((loaded .wide program data).run (some 100)).2.status = .exited := by decide +kernel
  have hSeven : ((loaded .wide program data).run (some 100)).2.pipeline.retired = 7 := by
    decide +kernel
  have hRuns : (Config.wide.reference program data).Runs 5 := by
    unfold Reference.Runs
    decide +kernel
  rcases hRun : (loaded .wide program data).run (some 100) with ⟨result, s'⟩
  rw [hRun] at hDone hEnd hSeven
  cases result with
  | error f => cases hDone
  | ok u =>
      obtain ⟨s, hMore, -, hSix⟩ := hPatience program data 5 (some (max 100 (patience * 7 : Nat)))
        (by decide) hRuns (by decide +kernel) (by decide +kernel) (Int.le_max_right _ _)
      rw [run_mono (Int.le_max_left _ _) hRun (by rw [hEnd]; rfl) (by rw [hEnd]; nofun)] at hMore
      cases hMore
      rw [hSeven] at hSix
      cases hSix

end Simulator

end AccelPipe

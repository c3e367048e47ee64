import AccelPipe.Proofs.Pipeline.Bare
import AccelPipe.Proofs.Simulator.Runs

/-! What a program computes does not depend on the banks, ports, latency and prefetching of the
memory, nor on whether the run is traced or checked. Two runs that do not time out have followed
one machine to its end. -/
namespace AccelPipe

open Pipeline

namespace Config

/-- A configuration without the settings that only change when things happen, or what is seen of
them. -/
def untimed (c : Config) : Config :=
  { c with
    bankCount := 2, ports := 1, memLatency := 1, mapping := .modulo, interleave := 1
    prefetchStride := 0, prefetchWindow := 0, trace := false, checkReference := false }

/-- A configuration without the settings that only change what is seen. -/
def unwatched (c : Config) : Config := { c with trace := false, checkReference := false }

variable {c c' : Config}

theorem machine_untimed (c : Config) (program : Image) (data : List (Int × List Int)) :
    c.untimed.machine program data = c.machine program data := rfl

theorem machine_eq_of_untimed (h : c.untimed = c'.untimed) (program : Image)
    (data : List (Int × List Int)) : c.machine program data = c'.machine program data := by
  rw [← machine_untimed c, h, machine_untimed]

end Config

/-! Where a run has ended. -/

namespace Reached

variable {a : Machine} {p q : Pipeline}

/-- Two runs that have ended have retired the same instructions. -/
theorem ended_unique (hP : Reached a p) (hQ : Reached a q) (hEndP : p.status.finished = true)
    (hTimeP : p.status ≠ .timeout) (hEndQ : q.status.finished = true)
    (hTimeQ : q.status ≠ .timeout) :
    p.status = q.status ∧ p.commits.map Commit.timeless = q.commits.map Commit.timeless ∧
      ∃ b, Ended b p ∧ Ended b q := by
  have hOpen : ∀ {r : Pipeline}, r.status.finished = true → r.status ≠ .timeout →
      ¬ (r.status.finished = false ∨ r.status = .timeout) := by
    rintro r hEnd hTime (hRun | hTimeout)
    · rw [hEnd] at hRun
      cases hRun
    · exact hTime hTimeout
  cases hP with
  | underWay _ _ _ hStatus => exact absurd hStatus (hOpen hEndP hTimeP)
  | @exited n hRuns hRetired hCommits hKind hEnded hStatus =>
      have hEnds : ending (Machine.after n a).instruction.kind ≠ none := by
        rw [hKind]
        nofun
      cases hQ with
      | underWay _ _ _ hStatus' => exact absurd hStatus' (hOpen hEndQ hTimeQ)
      | @exited k hRuns' hRetired' hCommits' hKind' hEnded' hStatus' =>
          obtain rfl : n = k := hRuns.unique hRuns' hEnds (by rw [hKind']; nofun)
          exact ⟨hStatus.trans hStatus'.symm, hCommits.trans hCommits'.symm, _, hEnded, hEnded'⟩
      | @illegal k hRetired' hKind' =>
          obtain rfl : n = k := hRuns.unique hRetired'.runs hEnds (by rw [hKind']; nofun)
          rw [hKind] at hKind'
          cases hKind'
  | @illegal n hRetired hKind hEnded hStatus =>
      have hEnds : ending (Machine.after n a).instruction.kind ≠ none := by
        rw [hKind]
        nofun
      cases hQ with
      | underWay _ _ _ hStatus' => exact absurd hStatus' (hOpen hEndQ hTimeQ)
      | @exited k hRuns' hRetired' hCommits' hKind' =>
          obtain rfl : n = k := hRetired.runs.unique hRuns' hEnds (by rw [hKind']; nofun)
          rw [hKind] at hKind'
          cases hKind'
      | @illegal k hRetired' hKind' hEnded' hStatus' =>
          obtain rfl : n = k := hRetired.runs.unique hRetired'.runs hEnds (by rw [hKind']; nofun)
          exact ⟨hStatus.trans hStatus'.symm, hRetired.commits.trans hRetired'.commits.symm, _,
            hEnded, hEnded'⟩

end Reached

theorem Ended.snapshot_eq {a : Machine} {p q : Pipeline} (hP : Ended a p) (hQ : Ended a q) :
    p.memory.snapshot = q.memory.snapshot := by
  unfold Memory.snapshot
  rw [hP.size, hQ.size, hP.words, hQ.words]

/-! Two runs that only differ in what watches them go on tick by tick together. -/

namespace Steps

variable {p q p' q' : Pipeline}

/-- One of two runs has a state that looks like the last one of the other. -/
theorem meet (h : Steps p q) (h' : Steps p' q') (hSame : p.bare = p'.bare) :
    (∃ r, Steps p' r ∧ q.bare = r.bare ∧ Steps r q') ∨
      ∃ r, Steps p r ∧ r.bare = q'.bare ∧ Steps r q := by
  induction h with
  | refl => exact .inl ⟨p', .refl, hSame, h'⟩
  | @tick q r hSteps hRun hTick ih =>
      rcases ih with ⟨s, hBefore, hLike, hBehind⟩ | ⟨s, hBefore, hLike, hBehind⟩
      · rcases hBehind.head with rfl | ⟨s', hOpen, hTick', hRest⟩
        · exact .inr ⟨q, hSteps, hLike, .tick .refl hRun hTick⟩
        · exact .inl ⟨s', hBefore.tick hOpen hTick', tick_bare hLike hTick hTick', hRest⟩
      · exact .inr ⟨s, hBefore, hLike, hBehind.tick hRun hTick⟩

/-- Two runs that have ended look alike at their ends. -/
theorem ended_bare (h : Steps p q) (h' : Steps p' q') (hSame : p.bare = p'.bare)
    (hEnd : q.status.finished = true) (hEnd' : q'.status.finished = true) : q.bare = q'.bare := by
  rcases h.meet h' hSame with ⟨r, -, hLike, hBehind⟩ | ⟨r, -, hLike, hBehind⟩
  · rcases hBehind.head with rfl | ⟨_, hOpen, -⟩
    · exact hLike
    · obtain ⟨-, -, -, hStatus, -⟩ := bare_eq hLike
      rw [hStatus, hEnd] at hOpen
      cases hOpen
  · rcases hBehind.head with rfl | ⟨_, hOpen, -⟩
    · exact hLike
    · obtain ⟨-, -, -, hStatus, -⟩ := bare_eq hLike
      rw [← hStatus, hEnd'] at hOpen
      cases hOpen

end Steps

theorem Simulator.build_bare {c c' : Config} (h : c.unwatched = c'.unwatched) (program : Image)
    (data : List (Int × List Int)) :
    (build c program data).bare = (build c' program data).bare := by
  have hStrip : ∀ c : Config,
      (build c program data).bare = (build c.unwatched program data).bare := by
    intro c
    rw [build_eq, build_eq]
    rfl
  rw [hStrip c, h, ← hStrip c']

namespace Simulator

/-- Two runs of one program on the same data, under configurations that differ in banks, ports,
latency, mapping, prefetching, trace and checking alone, come to the same end if neither times
out. If they differ in trace and checking alone, they take the same time, too. -/
theorem run_timing_independent {c c' : Config} (hValid : c.Valid) (hValid' : c'.Valid)
    (hSame : c.untimed = c'.untimed) {program : Image} {data : List (Int × List Int)}
    {budget budget' : Option Int} {s s' : Simulator}
    (hRun : (loaded c program data).run budget = (.ok (), s))
    (hRun' : (loaded c' program data).run budget' = (.ok (), s'))
    (hEnd : s.status.finished = true) (hTime : s.status ≠ .timeout)
    (hEnd' : s'.status.finished = true) (hTime' : s'.status ≠ .timeout) :
    s.status = s'.status ∧
      s.pipeline.commits.map Commit.timeless = s'.pipeline.commits.map Commit.timeless ∧
      s.pipeline.registers = s'.pipeline.registers ∧
      s.pipeline.memory.snapshot = s'.pipeline.memory.snapshot ∧
      s.pipeline.flushes = s'.pipeline.flushes ∧
      s.pipeline.units = s'.pipeline.units ∧
      (c.unwatched = c'.unwatched →
        s.cycle = s'.cycle ∧ s.pipeline.stalls = s'.pipeline.stalls ∧
          s.pipeline.memory.conflicts = s'.pipeline.memory.conflicts) := by
  have hState := run_runState hRun
  have hState' := run_runState hRun'
  have hReached := hState.reached (hValid.reached_build program data)
  have hReached' := hState'.reached (hValid'.reached_build program data)
  rw [← Config.machine_eq_of_untimed hSame] at hReached'
  obtain ⟨hStatus, hCommits, b, hEnded, hEnded'⟩ :=
    hReached.ended_unique hReached' hEnd hTime hEnd' hTime'
  refine ⟨hStatus, hCommits, hEnded.registers.trans hEnded'.registers.symm,
    hEnded.snapshot_eq hEnded', hEnded.flushes.trans hEnded'.flushes.symm,
    hEnded.units.trans hEnded'.units.symm, fun hWatch => ?_⟩
  obtain ⟨r, hSteps, hLast, hFaults⟩ := hState.ended_of_finished hEnd hTime
  obtain ⟨r', hSteps', hLast', hFaults'⟩ := hState'.ended_of_finished hEnd' hTime'
  have hBare : s.pipeline.bare = r.bare := by
    rw [hFaults]
    rfl
  have hBare' : s'.pipeline.bare = r'.bare := by
    rw [hFaults']
    rfl
  have hAlike : s.pipeline.bare = s'.pipeline.bare := by
    rw [hBare, hBare']
    exact hSteps.ended_bare hSteps' (build_bare hWatch program data) (hLast ▸ hEnd) (hLast' ▸ hEnd')
  obtain ⟨_, _, _, _, _, _, hRest⟩ := exists_of_bare hAlike
  unfold cycle
  rw [hRest]
  exact ⟨rfl, rfl, rfl⟩

/-- A store and a load of the same word, on a fast memory and on a slow one. -/
theorem run_timing_independent_of_load_use :
    ∃ s s', (loaded .small #[0x00500093, 0x00102023, 0x00002103, 0x00210133, 0x73] []).run none =
        (.ok (), s) ∧
      (loaded .slow #[0x00500093, 0x00102023, 0x00002103, 0x00210133, 0x73] []).run none =
        (.ok (), s') ∧
      s.cycle ≠ s'.cycle ∧ s.status = s'.status ∧ s.pipeline.registers = s'.pipeline.registers := by
  have hDone : ((loaded .small #[0x00500093, 0x00102023, 0x00002103, 0x00210133, 0x73] []).run
      none).1 = .ok () := by rfl
  have hDone' : ((loaded .slow #[0x00500093, 0x00102023, 0x00002103, 0x00210133, 0x73] []).run
      none).1 = .ok () := by rfl
  obtain ⟨hStatus, -, hRegisters, -⟩ := run_timing_independent Config.valid_small
    Config.valid_slow rfl (Prod.ext hDone rfl) (Prod.ext hDone' rfl) (by decide +kernel)
    (by decide +kernel) (by decide +kernel) (by decide +kernel)
  exact ⟨_, _, Prod.ext hDone rfl, Prod.ext hDone' rfl, by decide +kernel, hStatus, hRegisters⟩

end Simulator

end AccelPipe

import AccelPipe.Proofs.TimingIndependence
import AccelPipe.Proofs.Timetable.Order
import AccelPipe.Proofs.Timetable.Runs

/-! A faster memory never makes a run longer. Both runs retire the same instructions, each of which
comes to Writeback no later on the faster memory. -/
namespace AccelPipe

open Pipeline

namespace Config

variable {c c' : Config}

theorem Faster.untimed (h : c.Faster c') : c'.untimed = c.untimed := by
  rw [h.rest]
  rfl

/-! The three ways to make a memory faster. -/

theorem faster_ports (hPorts : c.ports = 1) : c.Faster { c with ports := 2 } where
  rest := rfl
  ports := by
    rw [hPorts]
    exact Nat.le_succ 1
  latency := Nat.le_refl _
  prefetch := .inr ⟨rfl, rfl⟩

theorem faster_latency {latency : Nat} (h : latency ≤ c.memLatency) :
    c.Faster { c with memLatency := latency } where
  rest := rfl
  ports := Nat.le_refl _
  latency := h
  prefetch := .inr ⟨rfl, rfl⟩

theorem faster_prefetch (h : c.prefetchStride = 0) (stride window : Nat) :
    c.Faster { c with prefetchStride := stride, prefetchWindow := window } where
  rest := rfl
  ports := Nat.le_refl _
  latency := Nat.le_refl _
  prefetch := .inl h

/-- A memory of two banks with a latency of three cycles. -/
def lagging : Config := { small with memLatency := 3 }

theorem valid_lagging : lagging.Valid := by
  constructor <;> decide

end Config

/-- Every commit of a run is an instruction that it has retired. -/
theorem Reached.length_commits {a : Machine} {p : Pipeline} (h : Reached a p) :
    p.commits.length = p.retired := by
  have hLength : ∀ {n : Nat}, p.commits.map Commit.timeless = a.history n →
      p.commits.length = n := by
    intro n hCommits
    rw [← List.length_map Commit.timeless, hCommits]
    unfold Machine.history
    rw [List.length_map, List.length_range]
  cases h with
  | underWay hRetired => exact (hLength hRetired.commits).trans hRetired.retired.symm
  | exited _ hRetired hCommits => exact (hLength hCommits).trans hRetired.symm
  | illegal hRetired => exact (hLength hRetired.commits).trans hRetired.retired.symm

namespace Simulator

/-- A run that exits takes the cycles of its timetable. -/
theorem cycle_of_exited {c : Config} (hValid : c.Valid) {program : Image}
    {data : List (Int × List Int)} {budget : Option Int} {s : Simulator}
    (hRun : (loaded c program data).run budget = (.ok (), s)) (hExited : s.status = .exited) :
    s.cycle = (Timetable.after s.pipeline.retired
      (Timetable.start c (c.machine program data))).writeback + 1 := by
  refine (run_runState hRun).cycle_of_exited (hValid.reached_build program data)
    (.underWay ?_ ?_) hExited
  · have hRetired : (build c program data).retired = 0 := by
      rw [build_eq]
      rfl
    rw [hRetired]
    exact hValid.onTime_build program data
  · rw [build_eq]
    rfl

-- five instructions, one of which waits for a load, timed without a look at the pipeline
example :
    (Timetable.after 5 (.start .small (Config.small.machine
      #[0x00500093, 0x00102023, 0x00002103, 0x00210133, 0x73] []))).writeback + 1 = 10 := by
  decide +kernel

/-- A run never takes longer because its memory has more ports, a shorter latency, or prefetching
where it had none. -/
theorem run_cycle_le_of_faster {c c' : Config} (hValid : c.Valid) (hValid' : c'.Valid)
    (hFaster : c.Faster c') {program : Image} {data : List (Int × List Int)}
    {budget budget' : Option Int} {s s' : Simulator}
    (hRun : (loaded c program data).run budget = (.ok (), s))
    (hRun' : (loaded c' program data).run budget' = (.ok (), s'))
    (hExited : s.status = .exited) (hExited' : s'.status = .exited) : s'.cycle ≤ s.cycle := by
  have hMachine := Config.machine_eq_of_untimed hFaster.untimed program data
  have hReached := (run_runState hRun).reached (hValid.reached_build program data)
  have hReached' := (run_runState hRun').reached (hValid'.reached_build program data)
  rw [cycle_of_exited hValid hRun hExited, cycle_of_exited hValid' hRun' hExited']
  rw [hMachine] at hReached' ⊢
  have hSame : s'.pipeline.retired = s.pipeline.retired := by
    obtain ⟨-, hCommits, -⟩ := hReached.ended_unique hReached'
      (congrArg RunStatus.finished hExited) (fun hTime => nomatch hExited.symm.trans hTime)
      (congrArg RunStatus.finished hExited') (fun hTime => nomatch hExited'.symm.trans hTime)
    have hLength := congrArg List.length hCommits
    rw [List.length_map, List.length_map, hReached.length_commits,
      hReached'.length_commits] at hLength
    exact hLength.symm
  have hNoLater := (Timetable.NoLater.start hFaster (c.machine program data)).after
    (.start hValid _) (.start hValid' _) s.pipeline.retired
  rw [hSame]
  exact Nat.succ_le_succ hNoLater.writeback

/-- A store and a load of the same word, on a slow memory and with each way to make it faster. -/
theorem run_cycle_le_of_load_use :
    ∃ s, (loaded .lagging #[0x00500093, 0x00102023, 0x00002103, 0x00210133, 0x73] []).run none =
        (.ok (), s) ∧
      s.status = .exited ∧
      ∀ c' ∈ [{ Config.lagging with ports := 2 }, { Config.lagging with memLatency := 1 },
          { Config.lagging with prefetchStride := 1, prefetchWindow := 2 }],
        ∃ s', (loaded c' #[0x00500093, 0x00102023, 0x00002103, 0x00210133, 0x73] []).run none =
            (.ok (), s') ∧
          s'.status = .exited ∧ s'.cycle ≤ s.cycle := by
  have hDone : ((loaded .lagging #[0x00500093, 0x00102023, 0x00002103, 0x00210133, 0x73] []).run
      none).1 = .ok () := by rfl
  have hExited : ((loaded .lagging #[0x00500093, 0x00102023, 0x00002103, 0x00210133, 0x73]
      []).run none).2.status = .exited := by decide +kernel
  -- a variable configuration keeps the run from being evaluated here
  have hCase : ∀ c' : Config, c'.Valid → Config.lagging.Faster c' →
      ((loaded c' #[0x00500093, 0x00102023, 0x00002103, 0x00210133, 0x73] []).run none).1 =
        .ok () →
      ((loaded c' #[0x00500093, 0x00102023, 0x00002103, 0x00210133, 0x73] []).run
        none).2.status = .exited →
      ∃ s', (loaded c' #[0x00500093, 0x00102023, 0x00002103, 0x00210133, 0x73] []).run none =
          (.ok (), s') ∧
        s'.status = .exited ∧
        s'.cycle ≤ ((loaded .lagging #[0x00500093, 0x00102023, 0x00002103, 0x00210133, 0x73]
          []).run none).2.cycle := by
    intro c' hValid' hFaster hDone' hExited'
    exact ⟨_, Prod.ext hDone' rfl, hExited',
      run_cycle_le_of_faster Config.valid_lagging hValid' hFaster (Prod.ext hDone rfl)
        (Prod.ext hDone' rfl) hExited hExited'⟩
  refine ⟨_, Prod.ext hDone rfl, hExited, fun c' hMem => ?_⟩
  simp only [List.mem_cons, List.not_mem_nil, or_false] at hMem
  rcases hMem with rfl | rfl | rfl
  · exact hCase _ (by constructor <;> decide) (Config.faster_ports rfl) (by rfl)
      (by decide +kernel)
  · exact hCase _ (by constructor <;> decide) (Config.faster_latency (by decide)) (by rfl)
      (by decide +kernel)
  · exact hCase _ (by constructor <;> decide) (Config.faster_prefetch rfl 1 2) (by rfl)
      (by decide +kernel)

end Simulator

end AccelPipe

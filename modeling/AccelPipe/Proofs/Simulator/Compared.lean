import AccelPipe.Proofs.Reference.Exact
import AccelPipe.Proofs.Simulator.Runs

/-! A run that is compared with a reference machine, commit by commit and at its end. No difference
is ever found, so that comparing does not change the run. -/
namespace AccelPipe

open Pipeline

/-- All commits of a run have been compared with the reference machine `r`, if they are compared at
all, and no difference has been found. The only grave fault is an illegal instruction that has ended
the run. -/
structure Compared (checks : Bool) (r : Reference) (p : Pipeline) : Prop where
  reference : p.reference = if checks then some (Reference.after p.retired r) else none
  faultless : p.status ≠ .illegalInstruction → p.grave = []
  fault : p.status = .illegalInstruction →
    ∃ f, p.grave = [f] ∧ f.kind = .decode ∧ f.pc = (Reference.after p.retired r).expectedPc

namespace Compared

variable {a : Machine} {r : Reference} {n : Nat} {p q : Pipeline} {checks : Bool}

/-- No difference from the reference machine is in the log behind the end. -/
theorem clean (h : Compared checks r p) : ∀ f ∈ p.grave, f.kind ≠ .correctness := by
  intro f hHeld
  by_cases hStatus : p.status = .illegalInstruction
  · obtain ⟨g, hOne, hDecode, -⟩ := h.fault hStatus
    rw [hOne] at hHeld
    rw [List.mem_singleton.mp hHeld, hDecode]
    nofun
  · rw [h.faultless hStatus] at hHeld
    cases hHeld

/-- With no mismatch on record there is no fault of that kind. -/
theorem faults_clean (h : Compared checks r p) : ∀ f ∈ p.faults, f.kind ≠ .correctness := by
  intro f hHeld hKind
  refine h.clean f (List.mem_filter.mpr ⟨List.mem_reverse.mp hHeld, ?_⟩) hKind
  rw [hKind]
  rfl

/-- A run that has not ended has no fault behind its end. -/
theorem faultless_of_open (h : Compared checks r p) (hRun : p.status.finished = false) :
    p.grave = [] := by
  refine h.faultless fun hIllegal => ?_
  rw [hIllegal] at hRun
  cases hRun

/-- A commit of the machine is found to be right. -/
theorem commit (h : Compared checks r p) (hCount : p.retired = n)
    (hStep : InStep (Reference.after n r) (Machine.after n a))
    (hExact : (Reference.after n r).ExactWindow (Reference.after n r).instruction) {c : Commit}
    (hCommit : c.timeless = (Machine.after n a).commit) :
    compared p.reference c =
      (.ok [], if checks then some (Reference.after (n + 1) r) else none) := by
  rw [h.reference, hCount]
  cases checks with
  | false => rfl
  | true =>
      unfold compared
      rw [if_pos rfl, if_pos rfl, Reference.after_succ]
      dsimp only
      rw [hStep.check hExact hCommit]

/-- A tick of a run that is compared does not fail, and finds no difference. It retires one
instruction at most. -/
theorem tick (h : Compared checks r p) (hStep : InStep r a) (hExact : r.Exact (p.retired + 1))
    (hReached : Reached a p) (hRun : p.status.finished = false) :
    ∃ q, p.tick = (.ok (), q) ∧ Compared checks r q ∧ q.retired ≤ p.retired + 1 := by
  obtain ⟨n, hRetired, -, hFollows⟩ := hReached.live hRun
  have hCount := hRetired.retired
  rw [hCount] at hExact
  obtain ⟨hNow, hWindow⟩ := hStep.at_after hExact hRetired.runs
  obtain ⟨m, hStaged, hCase⟩ := hFollows.tick hRun
  generalize hTick : p.tick = result at hCase
  cases hCase with
  | @idle q hWb hRest hGrave =>
      have hStatus : q.status = .running := by
        rw [hRest]
        exact hStaged.running
      refine ⟨q, rfl, ⟨?_, fun _ => ?_, fun hIllegal => ?_⟩, ?_⟩
      · rw [hRest]
        dsimp only
        rw [hStaged.reference, hStaged.retired]
        exact h.reference
      · exact hGrave.trans (h.faultless_of_open hRun)
      · cases hStatus.symm.trans hIllegal
      · rw [hRest]
        exact Nat.le_succ_of_le (Nat.le_of_eq hStaged.retired)
  | @retires q c mismatches reference hWb hCommit hCycle hKind hCompared hRest hGrave =>
      rw [h.commit hCount hNow hWindow hCommit] at hCompared
      obtain ⟨hNone, hNext⟩ := Prod.mk.inj hCompared
      obtain rfl := Except.ok.inj hNone
      refine ⟨q, rfl, ⟨?_, fun _ => ?_, fun hIllegal => ?_⟩, ?_⟩
      · rw [hRest]
        dsimp only
        rw [hCount]
        exact hNext.symm
      · exact hGrave.trans (h.faultless_of_open hRun)
      · have hStatus : q.status = statusAfter (Machine.after n a).instruction.kind .running := by
          rw [hRest]
        rw [hIllegal] at hStatus
        rcases after_cases hKind with ⟨-, -, hNextStatus⟩ | ⟨-, -, -, hNextStatus⟩ <;>
          rw [hNextStatus] at hStatus <;> cases hStatus
      · exact Nat.le_of_eq (congrArg Pipeline.retired hRest)
  | fails hWb hCommit hKind hCompared =>
      rw [h.commit hCount hNow hWindow hCommit] at hCompared
      cases (Prod.mk.inj hCompared).1
  | @illegal q f hWb hKind hRest hGrave hFault hPc =>
      have hKept : q.retired = n := by
        rw [hRest]
        exact hStaged.retired.trans hCount
      refine ⟨q, rfl, ⟨?_, fun hOther => ?_, fun _ => ⟨f, ?_, hFault, ?_⟩⟩, ?_⟩
      · rw [hRest]
        dsimp only
        rw [hStaged.reference, hStaged.retired]
        exact h.reference
      · exact absurd (congrArg Pipeline.status hRest) hOther
      · rw [hGrave, h.faultless_of_open hRun]
      · rw [hPc, hKept, hNow.pc]
      · rw [hKept, hCount]
        exact Nat.le_succ n

/-- The end of the time leaves the comparison as it is. -/
theorem timeout (h : Compared checks r p) (hRun : p.status.finished = false) :
    Compared checks r p.timeout where
  reference := h.reference
  faultless := fun _ => h.faultless_of_open hRun
  fault := nofun

end Compared

/-! Where the run has ended, the machines agree. -/

/-- At the end the reference machine has the state of the sequential machine. -/
theorem Reached.agrees_end {a : Machine} {r : Reference} {p : Pipeline} (h : Reached a p)
    (hStep : InStep r a) (hExact : r.Exact p.retired) (hEnd : p.status.finished = true)
    (hTime : p.status ≠ .timeout) :
    ∃ b, Ended b p ∧ Agrees (Reference.after p.retired r) b := by
  cases h with
  | underWay _ _ _ hStatus =>
      rcases hStatus with hRun | hTimeout
      · rw [hEnd] at hRun
        cases hRun
      · exact absurd hTimeout hTime
  | @exited n hRuns hRetired hCommits hKind hEnded hStatus =>
      rw [hRetired] at hExact ⊢
      obtain ⟨hNow, hWindow⟩ := hStep.at_after hExact hRuns
      refine ⟨_, hEnded, ?_⟩
      rw [Reference.after_succ, Machine.after_succ]
      exact (hNow.next hWindow).1
  | @illegal n hRetired hKind hEnded hStatus =>
      rw [hRetired.retired] at hExact ⊢
      obtain ⟨hNow, -⟩ := hStep.after hExact hRetired.runs
      refine ⟨_, hEnded, ?_⟩
      rw [Machine.after_succ]
      exact hNow.idle hKind

/-- The comparison at the end finds no difference. -/
theorem Ended.compareFinal {a : Machine} {r : Reference} {p : Pipeline} (h : Ended a p)
    (hAgrees : Agrees r a) : r.compareFinal p.registers.toList p.memory.snapshot = .ok [] :=
  hAgrees.compareFinal h.sound h.soundMemory h.size h.words h.registers

namespace Simulator

variable {a : Machine} {r : Reference} {p : Pipeline} {checks : Bool} {budget : Int}

/-- Within its budget, a run that is compared goes on with a tick. Comparing its final state does
not find a difference, either. -/
theorem advance_tick (h : Compared checks r p) (hStep : InStep r a)
    (hExact : r.Exact (p.retired + 1)) (hReached : Reached a p)
    (hRun : p.status.finished = false) (hBudget : p.cycle < budget) :
    ∃ q, p.tick = (.ok (), q) ∧ advance budget p = (.ok (), q) ∧ Reached a q ∧
      Compared checks r q ∧ q.retired ≤ p.retired + 1 := by
  obtain ⟨q, hTick, hCompared, hCount⟩ := h.tick hStep hExact hReached hRun
  have hNext := hReached.tick hRun hTick
  refine ⟨q, hTick, ?_, hNext, hCompared, hCount⟩
  rw [advance_within hRun hBudget, hTick]
  dsimp only
  split
  · rename_i hEnd
    unfold finalize
    rw [hCompared.reference]
    cases checks with
    | false => rfl
    | true =>
        rw [if_pos rfl]
        dsimp only
        by_cases hTime : q.status = .timeout
        · rw [if_pos hTime]
        · obtain ⟨b, hEnded, hAgrees⟩ := hNext.agrees_end hStep (hExact.mono hCount) hEnd hTime
          rw [if_neg hTime, hEnded.compareFinal hAgrees]
          rfl
  · rfl

/-- Whatever a clock cycle comes to, the run stays compared. -/
theorem advance_compared (budget : Int) (h : Compared checks r p) (hStep : InStep r a)
    (hExact : r.Exact (p.retired + 1)) (hReached : Reached a p) :
    Reached a (advance budget p).2 ∧ Compared checks r (advance budget p).2 ∧
      (advance budget p).2.retired ≤ p.retired + 1 := by
  cases hRun : p.status.finished with
  | true =>
      rw [advance_of_finished hRun]
      exact ⟨hReached, h, Nat.le_succ _⟩
  | false =>
      by_cases hBudget : budget ≤ p.cycle
      · rw [advance_timeout hRun hBudget]
        exact ⟨hReached.timeout hRun, h.timeout hRun, Nat.le_succ _⟩
      · obtain ⟨q, -, hAdvance, hNext, hCompared, hCount⟩ :=
          advance_tick h hStep hExact hReached hRun (Int.not_le.mp hBudget)
        rw [hAdvance]
        exact ⟨hNext, hCompared, hCount⟩

end Simulator

/-- A loaded simulator is compared with a reference machine that has not run yet. -/
theorem Config.compared_build (c : Config) (program : Image) (data : List (Int × List Int)) :
    Compared c.checkReference (c.reference program data)
      (Simulator.build c program data) := by
  rw [Simulator.build_eq]
  exact ⟨rfl, fun _ => rfl, nofun⟩

end AccelPipe

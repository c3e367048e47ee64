import AccelPipe.Proofs.Pipeline.Prompt
import AccelPipe.Proofs.Simulator.Runs

/-! The cycles of a run on a memory with a latency of one cycle. Each one is accounted for once: by
an instruction that retires, by a flush, by a stall, by an accelerator at work, or by the four
cycles in which the last instruction drains. -/
namespace AccelPipe

open Pipeline

/-- All that has been counted. -/
def tally {α : Type} (counts : List (α × Int)) : Int := total (counts.map Prod.snd)

section Counters

variable {α : Type} [DecidableEq α]

theorem tally_bump (counts : List (α × Int)) (key : α) (n : Int) :
    tally (bump counts key n) = tally counts + n := by
  unfold tally
  induction counts with
  | nil => simp [bump, total]
  | cons entry rest ih =>
      obtain ⟨k, count⟩ := entry
      unfold bump
      split
      · simp only [List.map_cons, total, List.foldr_cons]
        omega
      · simp only [List.map_cons, total, List.foldr_cons] at ih ⊢
        omega

theorem tally_bumpAll (counts : List (α × Int)) (events : List α) :
    tally (bumpAll counts events) = tally counts + events.length := by
  induction events generalizing counts with
  | nil => simp [bumpAll]
  | cons event rest ih =>
      have hRest := ih (bump counts event 1)
      rw [tally_bump] at hRest
      rw [List.length_cons]
      change tally (bumpAll (bump counts event 1) rest) = _
      omega

end Counters

namespace Units

variable {u v : Units}

/-- The cycles that the accelerator instructions among some commits take beyond their first. -/
def overtime (u : Units) (commits : List Commit) : Int :=
  total (commits.filterMap fun c =>
    (Accelerator.ofKind? c.ins.kind).map fun acc => (u.latency acc : Int) - 1)

theorem overtime_eq_of_frame (h : u.frame = v.frame) (commits : List Commit) :
    u.overtime commits = v.overtime commits := by
  unfold overtime
  simp only [latency_eq_of_frame h]

theorem overtime_append (commits commits' : List Commit) :
    u.overtime (commits ++ commits') = u.overtime commits + u.overtime commits' := by
  unfold overtime
  rw [List.filterMap_append, total_append]

theorem overtime_singleton (c : Commit) : u.overtime [c] = ((u.beats c.ins - 1 : Nat) : Int) := by
  have hOne := u.one_le_beats c.ins
  unfold overtime beats at *
  cases hOf : Accelerator.ofKind? c.ins.kind with
  | none => simp [hOf, total]
  | some acc =>
      rw [hOf] at hOne
      simp only [List.filterMap_cons, List.filterMap_nil, hOf, Option.map_some, total,
        List.foldr_cons, List.foldr_nil]
      dsimp only at hOne
      omega

end Units

/-- So many cycles of a run have been spent on what has not been retired yet. -/
def Accounted (u : Units) (p : Pipeline) (rest : Nat) : Prop :=
  (p.cycle : Int) =
    p.retired + 2 * p.flushes + tally p.stalls + u.overtime p.commits + rest

/-- What is known of the cycles of a run. -/
inductive Accounts (u : Units) (p : Pipeline) : Prop
  | underWay (hPrompt : Prompt u p p.cycle p.slots)
      (hRest : Accounted u p (load u p.fetchStopped p.slots))
      (hStatus : p.status.finished = false) : Accounts u p
  | exited (hRest : Accounted u p 4) (hStatus : p.status = .exited) : Accounts u p
  | illegal (hStatus : p.status = .illegalInstruction) : Accounts u p

theorem Prompt.of_eq {u : Units} {p q : Pipeline} {now : Int} {slots : Slots}
    (h : Prompt u p now slots) (hMemory : q.memory = p.memory)
    (hStopped : q.fetchStopped = p.fetchStopped) : Prompt u q now slots := by
  refine ⟨?_, h.fresh, h.alone, ?_⟩
  · rw [hMemory]
    exact h.timed
  · rw [hStopped]
    exact h.filled

/-- Four cycles are spent when there is nothing left to do. -/
theorem Follows.load_of_halted {a : Machine} {q : Pipeline} {registers : Registers} {slots : Slots}
    (h : Follows a q registers slots) (hHalted : a.halted = true) (u : Units) :
    load u q.fetchStopped slots = 4 := by
  obtain ⟨hWb, hMem, hEx⟩ := h.empty_of_halted hHalted
  obtain ⟨hStopped, hDecode⟩ := h.stopped_of_halted hHalted
  rw [hStopped, load_stopped u hDecode hEx, hMem, hWb]
  rfl

namespace Round

variable {u : Units} {a : Machine} {p q : Pipeline} {m₁ m₂ m₃ : Making} {free₁ free₂ free₃ : Bool}
  {control : Control} {commit : Option Commit}

/-- One more cycle, accounted for once. -/
theorem accounts (h : Round p a m₁ m₂ m₃ free₁ free₂ free₃ control commit)
    (hFrame : u.frame = a.units.frame) (hFollows : Follows a p p.registers p.slots)
    (hOpen : a.halted = false) (hPrompt : Prompt u p p.cycle p.slots)
    (hRest : Accounted u p (load u p.fetchStopped p.slots)) (hTick : p.tick = (.ok (), q)) :
    Accounts u q := by
  obtain ⟨hPromptNext, hSpent⟩ := h.prompt hFrame hFollows hOpen hPrompt rfl
  have hStaged := h.staged hFollows
  have hNext := h.follows hFollows
  have hCase := h.tick hFollows
  rw [hTick] at hCase
  generalize madeFetch m₃ p.slots.fetch free₃ control = m at hPromptNext hSpent hStaged hNext hCase
  unfold Accounted at hRest
  cases hCase with
  | idle hWb hQ hGrave =>
      have hCommits : q.commits = p.commits := by
        rw [hQ]
        exact hStaged.commits
      have hStalls := tally_bumpAll p.stalls m.stalls
      rw [hWb] at hSpent
      refine .underWay ?_ ?_ ?_
      · have hMine : Prompt u q (p.cycle + 1) m.next := hPromptNext.of_eq (by rw [hQ]) (by rw [hQ])
        rw [hQ] at hMine ⊢
        exact hMine
      · unfold Accounted
        rw [hCommits, hQ]
        dsimp only [Option.isSome_none, Bool.toNat_false, beyond] at hSpent ⊢
        rw [hStaged.retired]
        omega
      · rw [hQ]
        exact congrArg RunStatus.finished hStaged.running
  | @retires _ c mismatches reference hWb hCommit hCycle hKind hCompared hQ hGrave =>
      obtain ⟨s, hSlot⟩ := Option.isSome_iff_exists.mp hWb
      have hIns : c.ins = a.instruction := congrArg Commit.ins hCommit
      have hBeats : s.beats u = u.beats c.ins := by
        rw [hIns]
        exact Slot.beats_of_ins (hFollows.back.rear.writeback s hSlot).ins u
      have hOvertime : u.overtime q.commits = u.overtime p.commits + (u.beats c.ins - 1 : Nat) := by
        have hCommits : q.commits = p.commits ++ [c] := by
          rw [hQ]
          exact List.reverse_cons
        rw [hCommits, Units.overtime_append, Units.overtime_singleton]
      have hStalls := tally_bumpAll p.stalls m.stalls
      have hCounted : Accounted u q (load u m.pipeline.fetchStopped m.next) := by
        rw [hSlot] at hSpent
        unfold Accounted
        rw [hOvertime, hQ]
        dsimp only [Option.isSome_some, Bool.toNat_true, beyond] at hSpent ⊢
        rw [hBeats] at hSpent
        omega
      have hStatus : q.status = statusAfter a.instruction.kind .running := by rw [hQ]
      rcases after_cases hKind with
        ⟨-, hNextSlots, hNextStatus⟩ | ⟨hSystem, hEnds, -, hNextStatus⟩
      · have hSlots : q.slots = m.next := by
          rw [hQ]
          exact hNextSlots m.next
        have hStopped : q.fetchStopped = m.pipeline.fetchStopped := by rw [hQ]
        refine .underWay ?_ ?_ ?_
        · rw [hSlots, show q.cycle = p.cycle + 1 by rw [hQ]]
          exact hPromptNext.of_eq (by rw [hQ]) hStopped
        · rw [hSlots, hStopped]
          exact hCounted
        · rw [hStatus, hNextStatus]
          rfl
      · have hHalted : a.next.halted = true := by
          rw [Machine.next_halted, hEnds]
          rfl
        rw [hSlot, Machine.past_some] at hNext
        rw [hNext.load_of_halted hHalted u] at hCounted
        exact .exited hCounted (hStatus.trans (hNextStatus _))
  | illegal hWb hKind hQ hGrave hFault hPc =>
      refine .illegal ?_
      rw [hQ]

end Round

/-- The units keep their dimensions throughout a run. -/
theorem Reached.frame {a : Machine} {p : Pipeline} (h : Reached a p) (hSound : a.Sound) :
    p.units.frame = a.units.frame := by
  cases h with
  | @underWay n _ _ hFollows _ => exact hFollows.back.frame.trans (Machine.after_frame hSound n)
  | @exited n _ _ _ _ hEnded _ =>
      rw [hEnded.units]
      exact Machine.after_frame hSound (n + 1)
  | @illegal n _ _ hEnded _ =>
      rw [hEnded.units]
      exact Machine.after_frame hSound (n + 1)

/-- A run accounts for all its cycles. -/
theorem Steps.accounts {a : Machine} {p q : Pipeline} (h : Steps p q) (hSound : a.Sound)
    (hStart : Reached a p) (hAccounts : Accounts a.units p) : Accounts a.units q := by
  induction h with
  | refl => exact hAccounts
  | @tick q r hSteps hRun hTick ih =>
      obtain ⟨n, hRetired, hOpen, hFollows⟩ := (hSteps.reached hStart).live hRun
      obtain ⟨_, _, _, _, _, _, _, _, hRound⟩ := hFollows.round hRun
      have hFrame := (Machine.after_frame hSound n).symm
      cases ih with
      | underWay hPrompt hRest _ =>
          exact hRound.accounts hFrame hFollows hOpen hPrompt hRest hTick
      | exited _ hStatus =>
          rw [hStatus] at hRun
          cases hRun
      | illegal hStatus =>
          rw [hStatus] at hRun
          cases hRun

/-- At the start nothing has been spent. -/
theorem Config.Valid.accounts_build {c : Config} (h : c.Valid) (hLatency : c.memLatency = 1)
    (program : Image) (data : List (Int × List Int)) :
    Accounts (c.machine program data).units (Simulator.build c program data) := by
  have hTimed := (Memory.timed_fresh h).loadAll data
  rw [hLatency] at hTimed
  rw [Simulator.build_eq]
  refine .underWay ⟨hTimed, ?_, ?_, nofun⟩ rfl rfl
  · intro s hSlot
    cases hSlot
  · intro s hSlot
    cases hSlot

/-- A run that has exited has ended in a tick that accounts for all its cycles. -/
theorem RunState.accounted {a : Machine} {p q : Pipeline} (h : RunState p q) (hSound : a.Sound)
    (hStart : Reached a p) (hAccounts : Accounts a.units p) (hExited : q.status = .exited) :
    Accounted a.units q 4 := by
  obtain ⟨r, hSteps, hStatus, hRest⟩ :=
    h.ended_of_finished (by rw [hExited]; rfl) (by rw [hExited]; nofun)
  rw [hExited] at hStatus
  cases hSteps.accounts hSound hStart hAccounts with
  | underWay _ _ hRun =>
      rw [hStatus] at hRun
      cases hRun
  | exited hSpent _ =>
      rw [hRest]
      exact hSpent
  | illegal hIllegal => cases hStatus.symm.trans hIllegal

namespace Simulator

/-- With a memory latency of one cycle, a run that exits has taken one cycle for each instruction,
four more for the last one, two for each flush, one for each stall, and what the accelerators took
beyond the first cycle of their instructions. -/
theorem run_cycles {c : Config} (hValid : c.Valid) (hLatency : c.memLatency = 1) {program : Image}
    {data : List (Int × List Int)} {budget : Option Int} {s : Simulator}
    (hRun : (loaded c program data).run budget = (.ok (), s)) (hExited : s.status = .exited) :
    (s.cycle : Int) =
      s.pipeline.retired + 4 + 2 * s.pipeline.flushes + tally s.pipeline.stalls +
        s.pipeline.units.overtime s.pipeline.commits := by
  have hState := run_runState hRun
  have hSound := hValid.sound_machine program data
  have hStart := hValid.reached_build program data
  have hSpent := hState.accounted hSound hStart (hValid.accounts_build hLatency program data) hExited
  have hSame := (hState.reached hStart).frame hSound
  rw [Units.overtime_eq_of_frame hSame]
  unfold Accounted at hSpent
  change (s.pipeline.cycle : Int) = _
  omega

/-- Five instructions, one of which waits for the word that another one loads, and ten cycles. -/
theorem run_cycles_of_load_use :
    ∃ s, (loaded .small #[0x00500093, 0x00102023, 0x00002103, 0x00210133, 0x73] []).run none =
        (.ok (), s) ∧
      s.status = .exited ∧ s.cycle = 10 ∧
      (s.cycle : Int) =
        s.pipeline.retired + 4 + 2 * s.pipeline.flushes + tally s.pipeline.stalls +
          s.pipeline.units.overtime s.pipeline.commits := by
  have hDone : ((loaded .small #[0x00500093, 0x00102023, 0x00002103, 0x00210133, 0x73] []).run
      none).1 = .ok () := by rfl
  exact ⟨_, Prod.ext hDone rfl, by decide +kernel, by decide +kernel,
    run_cycles Config.valid_small rfl (Prod.ext hDone rfl) (by decide +kernel)⟩

end Simulator

end AccelPipe

import AccelPipe.Proofs.Simulator.Runs
import AccelPipe.Proofs.Timetable.Decode

/-! A run keeps to its timetable from its start, and so ends when its timetable says. -/
namespace AccelPipe

open Pipeline

/-- A pipeline keeps to the timetable of the instruction that is in Writeback or comes there
next. -/
structure OnTime (t : Timetable) (p : Pipeline) : Prop where
  back : Punctual t p.cycle p.memory p.slots.writeback p.slots.memory p.slots.execute
  front : Timely ((t.past p.slots.writeback).past p.slots.memory) p.cycle p.slots.execute
    p.slots.decode

theorem Pipeline.DecodeRound.rear {m m' : Making} {cur : Slots} {free₁ free₂ free₃ : Bool}
    {control : Control} {id : Option Slot} (h : DecodeRound m cur free₁ free₂ control id m' free₃) :
    m'.next.memory = m.next.memory ∧ m'.next.writeback = m.next.writeback := by
  cases h <;> exact ⟨rfl, rfl⟩

namespace Round

variable {t : Timetable} {p : Pipeline} {m₁ m₂ m₃ : Making} {free₁ free₂ free₃ : Bool}
  {control : Control} {commit : Option Commit}

theorem cleared (h : Round p t.machine m₁ m₂ m₃ free₁ free₂ free₃ control commit)
    (hFollows : Follows t.machine p p.registers p.slots) (hOnTime : OnTime t p) :
    Cleared (t.past p.slots.writeback) p.cycle m₁.pipeline.memory p.slots.memory p.slots.execute
      m₁.next.writeback m₁.next.memory free₁ := by
  have hRound := h.memory
  have hShows := hOnTime.back.shows
  rw [← Timetable.machine_past] at hRound
  rw [← Timetable.config_past t p.slots.writeback] at hShows
  refine hRound.punctual (hOnTime.back.sound.past _) (fun s hSlot => ?_)
    hFollows.back.rear.soundMemory.toEven rfl hOnTime.back.retired hOnTime.back.memory
    hOnTime.back.execute hShows
  rw [Timetable.machine_past]
  exact hFollows.back.rear.executed s hSlot

theorem advanced (h : Round p t.machine m₁ m₂ m₃ free₁ free₂ free₃ control commit)
    (hFollows : Follows t.machine p p.registers p.slots) (hOnTime : OnTime t p) :
    Advanced ((t.past p.slots.writeback).past p.slots.memory)
      ((t.past p.slots.writeback).past m₂.next.writeback) p.cycle m₂.pipeline.memory
      p.slots.execute m₂.next.memory m₂.next.execute free₂ control := by
  have hCycle : m₁.pipeline.cycle = p.cycle := by rw [h.memory.moved.rest]
  rw [h.execute.writeback]
  exact h.execute.punctual hFollows.back.running (h.memory.shifted hFollows.back.running)
    h.memory.free hOnTime.back (h.cleared hFollows hOnTime) hCycle

/-- What keeps the slot in Decode there is what the timetable knows to keep it there. -/
theorem reason (h : Round p t.machine m₁ m₂ m₃ free₁ free₂ free₃ control commit)
    (hFollows : Follows t.machine p p.registers p.slots) (hOnTime : OnTime t p)
    (hPath : ((t.past p.slots.writeback).past p.slots.memory).machine.OnPath p.slots.execute)
    {s : Slot} (hSlot : p.slots.decode = some s) :
    decodeReason p.slots free₁ s = .ok none ↔
      ∀ time ∈ (((t.past p.slots.writeback).past p.slots.memory).past p.slots.execute).hazards,
        time ≤ p.cycle + 1 := by
  have hMachine : ((t.past p.slots.writeback).past p.slots.memory).machine =
      (t.machine.past p.slots.writeback).past p.slots.memory := by
    rw [Timetable.machine_past, Timetable.machine_past]
  refine decodeReason_none_iff (hOnTime.back.sound.past _) hOnTime.back.retired
    hOnTime.back.memory hOnTime.back.execute (fun r hIs => ?_) (fun r hIs => ?_)
    (h.cleared hFollows hOnTime).free ?_
  · rw [Timetable.machine_past]
    exact (hFollows.back.rear.executed r hIs).toHolds
  · rw [hMachine]
    exact hFollows.back.holds r hIs
  · unfold Timetable.instruction
    rw [Timetable.machine_past, hMachine]
    rw [hMachine] at hPath
    exact hFollows.instruction_of_onPath hPath hSlot

/-- A tick keeps to the timetable. -/
theorem onTime (h : Round p t.machine m₁ m₂ m₃ free₁ free₂ free₃ control commit)
    (hFollows : Follows t.machine p p.registers p.slots) (hOnTime : OnTime t p) {q : Pipeline}
    (hCycle : q.cycle = p.cycle + 1)
    (hMemory : q.memory = (madeFetch m₃ p.slots.fetch free₃ control).pipeline.memory)
    (hSlots : q.slots = (madeFetch m₃ p.slots.fetch free₃ control).next) :
    OnTime (t.past p.slots.writeback) q := by
  have hCleared := h.cleared hFollows hOnTime
  have hAdvanced := h.advanced hFollows hOnTime
  obtain ⟨-, hTold, hFree, hNoDecode, -, hMoved⟩ := h.settled hFollows
  have hOpen : p.slots.decode.isSome = true → control = .goOn → m₂.next.execute = none →
      (((t.past p.slots.writeback).past p.slots.memory).past
        p.slots.execute).machine.halted = false := by
    intro hHeld hGoOn hLeft
    have hSame := hAdvanced.same
    subst hGoOn
    cases hTold with
    | goOn _ hHalted _ =>
        rw [hLeft, Machine.ahead_none, ← hFollows.stopped] at hHalted
        rw [hLeft, Timetable.past_none] at hSame
        rw [← hSame, Timetable.machine_past, Timetable.machine_past, Timetable.machine_past,
          hHalted]
        cases hStopped : p.fetchStopped with
        | false => rfl
        | true =>
            rw [hFollows.front.empty hStopped] at hHeld
            cases hHeld
  obtain ⟨hExecute, hShows, hBefore, hDecided⟩ := h.decode.punctual hAdvanced hFree hNoDecode
    hOnTime.front hOpen fun hPath s hSlot => h.reason hFollows hOnTime hPath hSlot
  obtain ⟨hEx, hMem, hWb⟩ := madeFetch_next m₃ p.slots.fetch free₃ control
  obtain ⟨hRearMem, hRearWb⟩ := h.decode.rear
  have hFetched := (madeFetch_pipeline m₃ p.slots.fetch free₃ control).1
  refine ⟨?_, ?_⟩
  · rw [hCycle, hMemory, hSlots, hEx, hMem, hWb, hRearMem, hRearWb, hFetched]
    rw [Timetable.config_past] at hShows
    rw [← h.execute.writeback] at hCleared
    exact ⟨hOnTime.back.sound.past _, hCleared.retired, hCleared.written, hAdvanced.memory,
      hExecute, hShows⟩
  · rw [hCycle, hSlots, hEx, hMem, hWb, hRearMem, hRearWb]
    refine hDecided.timely (p.slots.fetch.isSome && !m₃.pipeline.fetchStopped) ?_ ?_
    · rw [madeFetch_decode]
      simp only [Bool.and_assoc]
    · intro hPath hGoOn
      have hOld := hBefore hPath hGoOn
      rw [Timetable.machine_past, Timetable.machine_past] at hOld
      obtain ⟨hStopped, hLive⟩ := hFollows.live_of_onPath hOld
      rw [h.decode.pipeline, (h.memory.moved.trans hMoved).fetchStopped, hLive, Bool.true_and]
      exact congrArg Bool.not hStopped

end Round

/-- A run keeps to a timetable until it exits, in the tick after its last instruction has come to
Writeback. -/
inductive Scheduled (t : Timetable) (p : Pipeline) : Prop
  | underWay (hOnTime : OnTime (Timetable.after p.retired t) p)
      (hRun : p.status.finished = false)
  | exited (hCycle : p.cycle = (Timetable.after p.retired t).writeback + 1)
      (hStatus : p.status = .exited)
  | illegal (hStatus : p.status = .illegalInstruction)

namespace Round

variable {t : Timetable} {n : Nat} {p q : Pipeline} {m₁ m₂ m₃ : Making} {free₁ free₂ free₃ : Bool}
  {control : Control} {commit : Option Commit}

theorem scheduled
    (h : Round p (Timetable.after n t).machine m₁ m₂ m₃ free₁ free₂ free₃ control commit)
    (hFollows : Follows (Timetable.after n t).machine p p.registers p.slots)
    (hRetired : p.retired = n) (hOnTime : OnTime (Timetable.after n t) p)
    (hTick : p.tick = (.ok (), q)) : Scheduled t q := by
  have hNext := @h.onTime _ _ _ _ _ _ _ _ _ _ hFollows hOnTime
  have hStaged := h.staged hFollows
  have hCase := h.tick hFollows
  rw [hTick] at hCase
  generalize madeFetch m₃ p.slots.fetch free₃ control = m at hNext hStaged hCase
  have hCount : m.pipeline.retired = n := hStaged.retired.trans hRetired
  cases hCase with
  | idle hWb hRest hGrave =>
      rw [hWb, Timetable.past_none] at hNext
      have hSame : q.retired = n := by
        rw [hRest]
        exact hCount
      refine .underWay ?_ ?_
      · rw [hSame]
        exact hNext (by rw [hRest]) (by rw [hRest]) (by rw [hRest])
      · rw [hRest]
        exact congrArg RunStatus.finished hStaged.running
  | retires hWb hCommit hCycle hKind hCompared hRest hGrave =>
      obtain ⟨s, hSlot⟩ := Option.isSome_iff_exists.mp hWb
      have hWritten := hOnTime.back.written hWb
      rw [hSlot, Timetable.past_some, ← Timetable.after_succ] at hNext hWritten
      have hMore : q.retired = n + 1 := by
        rw [hRest, ← hRetired]
      have hStatus : q.status =
          statusAfter (Timetable.after n t).machine.instruction.kind .running := by rw [hRest]
      have hSlots : q.slots = slotsAfter (Timetable.after n t).machine.instruction.kind m.next := by
        rw [hRest]
      rcases after_cases hKind with ⟨-, hNextSlots, hNextStatus⟩ | ⟨-, -, -, hNextStatus⟩
      · refine .underWay ?_ ?_
        · rw [hMore]
          exact hNext (by rw [hRest]) (by rw [hRest]) (hSlots.trans (hNextSlots _))
        · rw [hStatus, hNextStatus]
          rfl
      · refine .exited ?_ (hStatus.trans (hNextStatus _))
        rw [hMore, hWritten, hRest]
  | illegal hWb hKind hRest hGrave hFault hPc =>
      refine .illegal ?_
      rw [hRest]

end Round

/-- A run keeps to its timetable. -/
theorem Steps.scheduled {t : Timetable} {p q : Pipeline} (h : Steps p q)
    (hStart : Reached t.machine p) (hScheduled : Scheduled t p) : Scheduled t q := by
  induction h with
  | refl => exact hScheduled
  | @tick q r hSteps hRun hTick ih =>
      obtain ⟨n, hRetired, -, hFollows⟩ := (hSteps.reached hStart).live hRun
      rw [← Timetable.machine_after] at hFollows
      obtain ⟨_, _, _, _, _, _, _, _, hRound⟩ := hFollows.round hRun
      cases ih with
      | underWay hOnTime _ =>
          rw [hRetired.retired] at hOnTime
          exact hRound.scheduled hFollows hRetired.retired hOnTime hTick
      | exited _ hStatus =>
          rw [hStatus] at hRun
          cases hRun
      | illegal hStatus =>
          rw [hStatus] at hRun
          cases hRun

/-- A run starts on time. -/
theorem Config.Valid.onTime_build {c : Config} (h : c.Valid) (program : Image)
    (data : List (Int × List Int)) :
    OnTime (Timetable.start c (c.machine program data)) (Simulator.build c program data) := by
  have hShows := (Memory.Shows.fresh c).loadAll data
  rw [Simulator.build_eq]
  refine ⟨⟨.start h _, Nat.le_refl 0, nofun, ?_, ?_, hShows⟩, nofun, fun _ _ => rfl⟩
  · intro s hSlot
    cases hSlot
  · intro s hSlot
    cases hSlot

/-- A run that has exited has ended in the tick after its last instruction has come to
Writeback. -/
theorem RunState.cycle_of_exited {t : Timetable} {p q : Pipeline} (h : RunState p q)
    (hStart : Reached t.machine p) (hScheduled : Scheduled t p) (hExited : q.status = .exited) :
    q.cycle = (Timetable.after q.retired t).writeback + 1 := by
  obtain ⟨r, hSteps, hStatus, hRest⟩ :=
    h.ended_of_finished (by rw [hExited]; rfl) (by rw [hExited]; nofun)
  rw [hExited] at hStatus
  cases hSteps.scheduled hStart hScheduled with
  | underWay _ hRun =>
      rw [hStatus] at hRun
      cases hRun
  | exited hCycle _ =>
      rw [hRest]
      exact hCycle
  | illegal hIllegal => cases hStatus.symm.trans hIllegal

end AccelPipe

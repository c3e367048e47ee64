import AccelPipe.Proofs.Pipeline.Runs

/-! Every state that ticks lead to, those that fail included. Only the comparison of a commit can make
a tick fail, and all else that the tick has changed stays changed: the pipeline goes on standing for
the machine after what it has retired. -/
namespace AccelPipe

open Pipeline

namespace Machine

variable {a : Machine}

/-- One instruction further if the slot holds one. -/
theorem after_past (n : Nat) (a : Machine) (slot : Option Slot) :
    (after n a).past slot = after (n + slot.toList.length) a := by
  cases slot with
  | none => rfl
  | some s => exact (after_succ n a).symm

/-- An instruction behind which the machine goes on does not end the run. -/
theorem ending_of_open (h : a.next.halted = false) : ending a.instruction.kind = none := by
  rw [next_halted] at h
  exact Option.isNone_iff_eq_none.mp (Option.isSome_eq_false_iff.mp h)

/-- An instruction that ends the run leaves the units as they are. -/
theorem next_units_idle (hKind : a.instruction.kind = .system ∨ a.instruction.kind = .illegal) :
    a.next.units = a.units := by
  rw [next_units, performed_idle hKind, snooped_of_not_store]
  rcases hKind with hIs | hIs <;> rw [hIs] <;> nofun

theorem Runs.past {n : Nat} (h : a.Runs n) {slot : Option Slot}
    (hOpen : ((after n a).past slot).halted = false) : a.Runs (n + slot.toList.length) := by
  cases slot with
  | none => exact h
  | some s => exact h.succ (ending_of_open hOpen)

end Machine

/-- The machine goes on behind the instructions in Writeback and in Memory if it does so behind
both. -/
theorem Rear.goes_on {a : Machine} {memory : Memory} {wb mem : Option Slot}
    (h : Rear a memory wb mem) (hOpen : ((a.past wb).past mem).halted = false) :
    a.halted = false ∧ (a.past wb).halted = false := by
  have hBehind : (a.past wb).halted = false := by
    cases mem with
    | none => exact hOpen
    | some s => exact (h.executed s rfl).running
  refine ⟨?_, hBehind⟩
  cases wb with
  | none => exact hBehind
  | some s => exact (h.writeback s rfl).running

/-- With the run ended by the instruction that has retired last, the units are those of the machine. -/
theorem Follows.units_of_ended {a : Machine} {n : Nat} {p : Pipeline} {registers : Registers}
    {slots : Slots} (h : Follows (Machine.after (n + 1) a) p registers slots)
    (hEnds : (ending (Machine.after n a).instruction.kind).isSome = true) :
    p.units = (Machine.after (n + 1) a).units := by
  have hHalted : (Machine.after (n + 1) a).halted = true := by
    rw [Machine.after_succ, Machine.next_halted, hEnds]
  exact (h.ended hHalted).2.2.2.2.1

/-- A state of a run, however its ticks have ended: the pipeline stands for the machine after what it
has retired, or the run is over, nothing is under way and the units are those of the machine. -/
inductive Standing (a : Machine) (p : Pipeline) : Prop
  | underWay (hRuns : (Machine.after p.retired a).halted = false → a.Runs p.retired)
      (hFollows : Follows (Machine.after p.retired a) p p.registers p.slots)
      (hOpen : p.status.finished = false ∨ p.status = .timeout)
  | ended (hStatus : p.status.finished = true) (hSlots : p.slots = .bubbles)
      (hUnits : p.units = (Machine.after p.retired a).units)

namespace Standing

variable {a : Machine} {p q : Pipeline}

/-- Faults, and whether the time is up, make no difference. -/
theorem of_eq (h : Standing a p) {status : RunStatus} {faultLog : List Fault}
    (hStatus : status = p.status ∨ p.status.finished = false ∧ status = .timeout) :
    Standing a { p with status, faultLog } := by
  cases h with
  | underWay hRuns hFollows hOpen =>
      refine .underWay hRuns (hFollows.of_eq rfl rfl rfl rfl rfl) ?_
      rcases hStatus with rfl | ⟨-, hTime⟩
      · exact hOpen
      · exact .inr hTime
  | ended hEnd hSlots hUnits =>
      refine .ended ?_ hSlots hUnits
      rcases hStatus with rfl | ⟨hRun, -⟩
      · exact hEnd
      · cases hEnd.symm.trans hRun

/-- As long as the run is not over, the pipeline follows the machine. -/
theorem live (h : Standing a p) (hRun : p.status.finished = false) :
    ((Machine.after p.retired a).halted = false → a.Runs p.retired) ∧
      Follows (Machine.after p.retired a) p p.registers p.slots := by
  cases h with
  | underWay hRuns hFollows => exact ⟨hRuns, hFollows⟩
  | ended hStatus => cases hStatus.symm.trans hRun

/-- The machine after what has been retired is the one that the pipeline follows. -/
theorem of_follows {n : Nat} {slots : Slots}
    (hFollows : Follows (Machine.after n a) p (Machine.after n a).registers slots)
    (hRuns : (Machine.after n a).halted = false → a.Runs n) (hRetired : p.retired = n)
    (hRegisters : p.registers = (Machine.after n a).registers) (hSlots : p.slots = slots)
    (hRunning : p.status = .running) : Standing a p := by
  subst hRetired hSlots
  refine .underWay hRuns ?_ (.inl (congrArg RunStatus.finished hRunning))
  rw [hRegisters]
  exact hFollows

/-- However a tick ends, the pipeline stands for the machine after it. -/
theorem tick (h : Standing a p) (hRun : p.status.finished = false) : Standing a p.tick.2 := by
  obtain ⟨hRuns, hFollows⟩ := h.live hRun
  obtain ⟨_, _, m₃, _, _, free₃, control, _, hRound⟩ := hFollows.round hRun
  have hNext := hRound.follows hFollows
  have hStaged := hRound.staged hFollows
  have hCase := hRound.tick hFollows
  generalize madeFetch m₃ p.slots.fetch free₃ control = m at hNext hStaged hCase
  have hBehind := hCase.follows hNext
  -- with an instruction in Writeback, the machine is one further
  have hFurther : p.slots.writeback.isSome = true →
      Follows (Machine.after (p.retired + 1) a) p.tick.2
          (Machine.after (p.retired + 1) a).registers m.next ∧
        ((Machine.after (p.retired + 1) a).halted = false → a.Runs (p.retired + 1)) := by
    intro hWb
    obtain ⟨s, hSlot⟩ := Option.isSome_iff_exists.mp hWb
    rw [hSlot, Machine.past_some, ← Machine.after_succ] at hBehind
    refine ⟨hBehind, fun hOpen => ?_⟩
    have hBefore := hRuns (hFollows.back.rear.writeback s hSlot).running
    rw [Machine.after_succ] at hOpen
    exact hBefore.succ (Machine.ending_of_open hOpen)
  generalize p.tick = t at hCase hBehind hFurther
  cases hCase with
  | idle hWb hRest hGrave =>
      rw [hWb, Machine.past_none] at hBehind
      refine of_follows hBehind hRuns ?_ ?_ ?_ ?_ <;> dsimp only <;> rw [hRest]
      · exact hStaged.retired
      · exact hStaged.registers.trans hFollows.registers
      · exact hStaged.running
  | retires hWb hCommit hCycle hKind hCompared hRest hGrave =>
      obtain ⟨hFollowsNext, hRunsNext⟩ := hFurther hWb
      rw [← Machine.after_succ] at hRest
      rcases after_cases hKind with
        ⟨-, hNextSlots, hNextStatus⟩ | ⟨-, hEnds, hNextSlots, hNextStatus⟩
      · refine of_follows hFollowsNext hRunsNext ?_ ?_ ?_ ?_ <;> dsimp only <;> rw [hRest]
        · exact hNextSlots m.next
        · exact hNextStatus .running
      · have hUnits := hFollowsNext.units_of_ended (by rw [hEnds]; rfl)
        refine .ended ?_ ?_ ?_ <;> dsimp only at hUnits ⊢
        · rw [hRest]
          exact congrArg RunStatus.finished (hNextStatus .running)
        · rw [hRest]
          exact hNextSlots m.next
        · rw [hUnits, show _ = p.retired + 1 from congrArg Pipeline.retired hRest]
  | fails hWb hCommit hKind hCompared hRest =>
      obtain ⟨hFollowsNext, hRunsNext⟩ := hFurther hWb
      rw [← Machine.after_succ] at hRest
      refine of_follows hFollowsNext hRunsNext ?_ ?_ ?_ ?_ <;> dsimp only <;> rw [hRest]
      exact hStaged.running
  | illegal hWb hKind hRest hGrave hFault hPc =>
      have hUnits := (hFurther hWb).1.units_of_ended (by rw [hKind]; rfl)
      refine .ended ?_ ?_ ?_ <;> dsimp only at hUnits ⊢
      · rw [hRest]
        rfl
      · rw [hRest]
      · rw [hUnits, Machine.after_succ, Machine.next_units_idle (.inr hKind),
          show _ = p.retired from (congrArg Pipeline.retired hRest).trans hStaged.retired]

end Standing

section Slots

variable {a : Machine} {p : Pipeline} {m₁ m₂ m₃ : Making} {free₁ free₂ free₃ : Bool}
  {control : Control} {commit : Option Commit}

/-- A commit that does not end the run leaves the slots as the stages of its tick have made them. -/
theorem Round.slots_of_open (h : Round p a m₁ m₂ m₃ free₁ free₂ free₃ control commit)
    (hFollows : Follows a p p.registers p.slots) (hOpen : (a.past p.slots.writeback).halted = false) :
    p.tick.2.slots = (madeFetch m₃ p.slots.fetch free₃ control).next := by
  have hGoesOn : p.slots.writeback.isSome = true → ending a.instruction.kind = none := by
    intro hWb
    obtain ⟨w, hIs⟩ := Option.isSome_iff_exists.mp hWb
    rw [hIs] at hOpen
    exact Machine.ending_of_open hOpen
  have hCase := h.tick hFollows
  generalize madeFetch m₃ p.slots.fetch free₃ control = m at hCase
  generalize p.tick = t at hCase
  cases hCase with
  | idle hWb hRest hGrave =>
      dsimp only
      rw [hRest]
  | retires hWb hCommit hCycle hKind hCompared hRest hGrave =>
      dsimp only
      rw [hRest]
      unfold slotsAfter
      rw [hGoesOn hWb]
      rfl
  | fails hWb hCommit hKind hCompared hRest =>
      dsimp only
      rw [hRest]
  | illegal hWb hKind hRest hGrave hFault hPc =>
      have hNone := hGoesOn hWb
      rw [hKind] at hNone
      cases hNone

/-- As long as Execute is occupied, no commit ends the run. -/
theorem Round.tick_slots (h : Round p a m₁ m₂ m₃ free₁ free₂ free₃ control commit)
    (hFollows : Follows a p p.registers p.slots) {s : Slot} (hSlot : p.slots.execute = some s) :
    p.tick.2.slots = (madeFetch m₃ p.slots.fetch free₃ control).next :=
  h.slots_of_open hFollows (hFollows.back.rear.goes_on (hFollows.back.holds s hSlot).running).2

/-- Nor does one as long as there is something to fetch. -/
theorem Round.tick_slots_of_fetch (h : Round p a m₁ m₂ m₃ free₁ free₂ free₃ control commit)
    (hFollows : Follows a p p.registers p.slots)
    (hFetch : (madeFetch m₃ p.slots.fetch free₃ control).next.fetch.isSome = true) :
    p.tick.2.slots = (madeFetch m₃ p.slots.fetch free₃ control).next := by
  refine h.slots_of_open hFollows ?_
  by_contra hNot
  have hNext := h.follows hFollows
  have hLive := hNext.front.live
  rw [(hNext.stopped_of_halted (Bool.not_eq_false _ ▸ hNot)).1, hFetch] at hLive
  cases hLive

end Slots

/-- A tick leaves the slots as its stages have made them, or ends the run with none. -/
theorem Tick.slots {p : Pipeline} {a : Machine} {m : Making}
    {t : Except Failure Unit × Pipeline} (h : Tick p a m t) :
    t.2.slots = m.next ∨ t.2.slots = .bubbles := by
  cases h with
  | idle hWb hRest => exact .inl (by rw [hRest])
  | retires hWb hCommit hCycle hKind hCompared hRest =>
      dsimp only
      rw [hRest]
      dsimp only
      unfold slotsAfter
      split
      · exact .inr rfl
      · exact .inl rfl
  | fails hWb hCommit hKind hCompared hRest => exact .inl (by rw [hRest])
  | illegal hWb hKind hRest => exact .inr (by rw [hRest])

/-- What the slots keep from one tick to the next, whatever its stages do. -/
structure Stages.Kept (P : Slots → Prop) : Prop where
  bubbles : P .bubbles
  round : ∀ {a : Machine} {p : Pipeline} {m₁ m₂ m₃ : Making} {free₁ free₂ free₃ : Bool}
    {control : Control} {commit : Option Commit},
    Round p a m₁ m₂ m₃ free₁ free₂ free₃ control commit → Follows a p p.registers p.slots →
      P p.slots → P (madeFetch m₃ p.slots.fetch free₃ control).next

/-- It is kept however a tick ends. -/
theorem Standing.kept_tick {P : Slots → Prop} (hKept : Stages.Kept P) {a : Machine} {p : Pipeline}
    (h : Standing a p) (hRun : p.status.finished = false) (hOld : P p.slots) :
    P p.tick.2.slots := by
  have hFollows := (h.live hRun).2
  obtain ⟨_, _, _, _, _, _, _, _, hRound⟩ := hFollows.round hRun
  rcases (hRound.tick hFollows).slots with hNext | hEnd
  · rw [hNext]
    exact hKept.round hRound hFollows hOld
  · rw [hEnd]
    exact hKept.bubbles

end AccelPipe

import AccelPipe.Proofs.Pipeline.Timing

/-! One tick on a memory with a latency of one tick. Memory never has to wait, so that an
instruction that stays in Execute is alone with its ports, and every tick that fetches nothing is
accounted for once. -/
namespace AccelPipe

open Pipeline

/-- The ticks that the instruction of a slot takes in Execute. -/
def Slot.beats (s : Slot) (u : Units) : Nat := (s.ins.map u.beats).getD 1

/-- The ticks beyond the first that an instruction has taken in Execute, once it has left it. -/
def beyond (u : Units) : Option Slot → Nat
  | some s => s.beats u - 1
  | none => 0

/-- The ticks beyond the first that an instruction in Execute has taken so far. -/
def spent (u : Units) : Option Slot → Nat
  | some s => if s.started then s.beats u - s.remaining else 0
  | none => 0

/-- The ticks that an instruction in Execute has left. -/
def left : Option Slot → Nat
  | some s => if s.started then s.remaining else 0
  | none => 0

/-- A slot that has not started has spent nothing. -/
theorem spent_of_fresh {s : Slot} (h : s.started = false) (u : Units) : spent u (some s) = 0 := by
  unfold spent
  simp [h]

/-- Nor has it anything left. -/
theorem left_of_fresh {s : Slot} (h : s.started = false) : left (some s) = 0 := by
  unfold left
  simp [h]

/-- A slot takes the time of its instruction. -/
theorem Slot.beats_of_ins {s : Slot} {ins : Instruction} (h : s.ins = some ins) (u : Units) :
    s.beats u = u.beats ins := by
  unfold beats
  rw [h]
  rfl

/-- Ports are free once the instruction in Execute is through, accesses in Memory have not begun,
and an instruction that stays in Execute has nothing in front of it. -/
structure Prompt (u : Units) (q : Pipeline) (now : Int) (slots : Slots) : Prop where
  timed : q.memory.Timed 1 (now + left slots.execute)
  fresh : ∀ s, slots.memory = some s → s.started = false
  alone : ∀ s, slots.execute = some s → s.started = true →
    slots.memory = none ∧ 0 < s.remaining ∧ s.remaining < s.beats u
  filled : q.fetchStopped = false → slots.execute.isSome = true → slots.decode.isSome = true

namespace Pipeline

variable {p : Pipeline} {ins : Instruction} {u : Units}

/-- Memory is done within its tick. -/
theorem MemoryMove.prompt {s : Slot} {step : StageStep} (h : MemoryMove p s ins step)
    (hEven : p.memory.Even) (hTimed : p.memory.Timed 1 p.cycle) (hFresh : s.started = false) :
    step.done = true ∧ step.stalls = [] ∧ step.slot.ins = s.ins := by
  cases h with
  | passes => exact ⟨rfl, rfl, rfl⟩
  | refused _ _ _ hBegin => exact absurd (refused_timed hTimed hEven hBegin) (Int.lt_irrefl _)
  | waits _ _ hAccess hLeft =>
      have hOne := hAccess.left_of_fresh hTimed hFresh
      omega
  | loads => exact ⟨rfl, rfl, rfl⟩
  | stores => exact ⟨rfl, rfl, rfl⟩

/-- With the ports free in time, Memory lets its slot pass at once. -/
theorem MemoryRound.prompt {mem : Option Slot} {m : Making} {free : Bool} {time : Int}
    (h : MemoryRound p ins mem m free) (hEven : p.memory.Even)
    (hTimed : p.memory.Timed 1 time) (hFree : mem ≠ none → time ≤ p.cycle)
    (hFresh : ∀ s, mem = some s → s.started = false) (u : Units) :
    free = true ∧ m.stalls = [] ∧ m.next.memory = none ∧
      m.next.writeback.isSome = mem.isSome ∧ beyond u m.next.writeback = beyond u mem ∧
      m.pipeline.memory.Timed 1 (max (p.cycle + 1) time) := by
  cases h with
  | empty => exact ⟨rfl, rfl, rfl, rfl, rfl, hTimed.mono (Int.le_max_right _ _)⟩
  | @moves s step hMove =>
      have hNow := hTimed.mono (hFree (by simp))
      obtain ⟨hDone, hStalls, hIns⟩ := hMove.prompt hEven hNow (hFresh s rfl)
      have hAfter := hMove.timed hTimed (Int.le_max_right (p.cycle + 1) time)
        (Int.le_max_left (p.cycle + 1) time)
      rw [hDone]
      refine ⟨rfl, hStalls, rfl, rfl, ?_, hAfter⟩
      change (step.slot.ins.map u.beats).getD 1 - 1 = (s.ins.map u.beats).getD 1 - 1
      rw [hIns]

/-- A tick of Execute with nothing in front of it. The instruction leaves with all its ticks taken,
or the tick is one stall or one of the instruction's own. -/
inductive Paid (u : Units) (m : Making) (ex : Option Slot) (m' : Making) : Bool → Control → Prop
  | leaves {control : Control} (hStalls : m'.stalls = m.stalls)
      (hSome : m'.next.memory.isSome = ex.isSome)
      (hFresh : ∀ s, m'.next.memory = some s → s.started = false)
      (hBeyond : beyond u m'.next.memory = spent u ex) (hNone : m'.next.execute = none)
      (hEmpty : ex = none → control = .goOn) : Paid u m ex m' true control
  | stays {s t : Slot} (hBefore : ex = some s) (hSlot : m'.next.execute = some t)
      (hMemory : m'.next.memory = none)
      (hPaid : m'.stalls.length + spent u (some t) = m.stalls.length + spent u ex + 1)
      (hAlone : t.started = true → 0 < t.remaining ∧ t.remaining < t.beats u) :
      Paid u m ex m' false .goOn

section Paid

variable {m m' : Making} {ex : Option Slot} {free : Bool} {control : Control}

/-- What leaves Execute takes its ticks along, what stays takes one more. -/
theorem Paid.balance (h : Paid u m ex m' free control) :
    m'.stalls.length + (m'.next.execute.isSome.toNat + spent u m'.next.execute) +
        (m'.next.memory.isSome.toNat + beyond u m'.next.memory) =
      m.stalls.length + (ex.isSome.toNat + spent u ex) + (!free).toNat := by
  cases h with
  | leaves hStalls hSome hFresh hBeyond hNone =>
      rw [hStalls, hSome, hBeyond, hNone]
      simp only [Option.isSome_none, Bool.not_true, Bool.toNat_false, spent]
      omega
  | stays hBefore hSlot hMemory hPaid =>
      rw [hSlot, hMemory, hBefore]
      rw [hBefore] at hPaid
      simp only [Option.isSome_none, Option.isSome_some, Bool.not_false, Bool.toNat_true,
        Bool.toNat_false, beyond]
      omega

/-- A slot that Execute has moved on has not started in Memory. -/
theorem Paid.fresh (h : Paid u m ex m' free control) (s : Slot)
    (hSlot : m'.next.memory = some s) : s.started = false := by
  cases h with
  | leaves _ _ hFresh => exact hFresh s hSlot
  | stays _ _ hNone =>
      rw [hNone] at hSlot
      cases hSlot

/-- A slot that is at work in Execute is alone there, with time left. -/
theorem Paid.alone (h : Paid u m ex m' free control) (s : Slot) (hSlot : m'.next.execute = some s)
    (hStarted : s.started = true) :
    m'.next.memory = none ∧ 0 < s.remaining ∧ s.remaining < s.beats u := by
  cases h with
  | leaves _ _ _ _ hNone =>
      rw [hNone] at hSlot
      cases hSlot
  | stays _ hOwn hNone _ hAlone =>
      obtain rfl := Option.some.inj (hOwn.symm.trans hSlot)
      exact ⟨hNone, hAlone hStarted⟩

/-- A flush comes from an instruction that leaves Execute. -/
theorem Paid.of_flush (h : Paid u m ex m' free control) (hControl : control ≠ .goOn) :
    free = true ∧ ex.isSome = true ∧ m'.next.execute = none ∧ m'.next.memory.isSome = true := by
  cases h with
  | leaves _ hSome _ _ hNone hEmpty =>
      have hBusy : ex.isSome = true := Option.isSome_iff_ne_none.mpr (mt hEmpty hControl)
      exact ⟨rfl, hBusy, hNone, hSome.trans hBusy⟩
  | stays => exact absurd rfl hControl

/-- An empty Execute is free. -/
theorem Paid.of_empty (h : Paid u m none m' free control) :
    free = true ∧ m'.next.memory.isSome = false := by
  cases h with
  | leaves _ hSome => exact ⟨rfl, hSome⟩
  | stays hBefore => cases hBefore

/-- Once it is free, it is empty. -/
theorem Paid.none_of_free (h : Paid u m ex m' true control) : m'.next.execute = none := by
  cases h with
  | leaves _ _ _ _ hNone => exact hNone

end Paid

/-- An accelerator instruction never changes where execution goes on. -/
theorem controlOf_accelerated {s t : Slot} {acc : Accelerator} (hIns : t.ins = some ins)
    (hKind : ins.kind = acc.kind) : controlOf s t = .goOn := by
  unfold controlOf
  rw [hIns]
  dsimp only
  rw [hKind]
  cases acc <;> simp [Accelerator.kind]

/-- One tick of an instruction in Execute with nothing in front of it: it does not start and has one
stall, or it has started and has the ticks `step.slot.remaining` left. -/
inductive Beat (u : Units) (s : Slot) (now : Int) (step : StageStep) : Prop
  | waits (cause : StallCause) (hBefore : s.started = false) (hAfter : step.slot.started = false)
      (hDone : step.done = false) (hStalls : step.stalls = [cause])
      (hTimed : step.pipeline.memory.Timed 1 now)
  | runs (hStarted : step.slot.started = true) (hDone : step.done = (step.slot.remaining == 0))
      (hStalls : step.stalls = [])
      (hSpent : spent u (some s) + 1 + step.slot.remaining = step.slot.beats u)
      (hGoOn : step.slot.remaining ≠ 0 → controlOf s step.slot = .goOn)
      (hTimed : step.pipeline.memory.Timed 1 (now + step.slot.remaining))

/-- A tick in Execute is one beat of its instruction. -/
theorem ExecuteMove.beat {s : Slot} {mem : Option Slot} {f : Hazard.Forwarding} {step : StageStep}
    (h : ExecuteMove p s ins mem f step) (hIns : s.ins = some ins)
    (hBeats : p.units.beats ins = u.beats ins)
    (hAlone : s.started = true → 0 < s.remaining ∧ s.remaining < s.beats u)
    (hTimed : p.memory.Timed 1 (p.cycle + max 1 (left (some s) : Int))) :
    Beat u s (p.cycle + 1) step := by
  have hFreshTimed : s.started = false → p.memory.Timed 1 (p.cycle + 1) := by
    intro hFresh
    rw [left_of_fresh hFresh] at hTimed
    exact hTimed.mono (by omega)
  cases h with
  | advances hStarted =>
      obtain ⟨hPositive, hLess⟩ := hAlone hStarted
      have hLeft : left (some s) = s.remaining := if_pos hStarted
      have hSpent : spent u (some s) = s.beats u - s.remaining := if_pos hStarted
      rw [hLeft] at hTimed
      refine .runs hStarted rfl rfl ?_ (fun _ => controlOf_started_before hStarted)
        (hTimed.mono ?_)
      · change _ + 1 + (s.remaining - 1) = s.beats u
        omega
      · change _ ≤ p.cycle + 1 + ((s.remaining - 1 : Nat) : Int)
        omega
  | unready hFresh => exact .waits _ hFresh hFresh rfl rfl (hFreshTimed hFresh)
  | ordered hFresh => exact .waits _ hFresh hFresh rfl rfl (hFreshTimed hFresh)
  | blocked hFresh _ _ hBlocked =>
      exact .waits _ hFresh hFresh rfl rfl
        ((hFreshTimed hFresh).reserveBurst _ (Int.le_refl _) fun hGranted =>
          absurd hGranted hBlocked)
  | @starts w units memory hFresh hReady hBurst hPerform =>
      have hOne : 1 ≤ u.beats ins := u.one_le_beats ins
      have hAfter : memory.Timed 1 (p.cycle + u.beats ins) := by
        refine (ExecuteMove.starts hFresh hReady hBurst hPerform).timed (hFreshTimed hFresh)
          (by omega) ?_
        intro _ _
        rw [hBeats]
        omega
      rw [hBeats]
      refine .runs rfl rfl rfl ?_ (fun hMore => ?_) (hAfter.mono ?_)
      · change spent u (some s) + 1 + (u.beats ins - 1) = s.beats u
        rw [spent_of_fresh hFresh, Slot.beats_of_ins hIns]
        omega
      · have hMany : u.beats ins - 1 ≠ 0 := hMore
        obtain ⟨acc, hKind⟩ := Units.accelerated_of_beats (show 1 < u.beats ins by omega)
        exact controlOf_accelerated hIns hKind
      · change _ ≤ p.cycle + 1 + ((u.beats ins - 1 : Nat) : Int)
        omega

/-- A beat is paid for, whether the slot moves on or not. -/
theorem Beat.paid {s : Slot} {now : Int} {step : StageStep} (h : Beat u s now step) {m : Making}
    (hMemory : m.next.memory = none) (hExecute : m.next.execute = none) {next : Slots}
    (hNext : next = if step.done then { m.next with memory := some step.slot.enter }
      else { m.next with execute := some { step.slot with stalled := true } }) :
    Paid u m (some s)
        { m with pipeline := step.pipeline, next := next, stalls := m.stalls ++ step.stalls }
        step.done (controlOf s step.slot) ∧
      step.pipeline.memory.Timed 1 (now + left next.execute) := by
  cases h with
  | waits cause hBefore hAfter hDone hStalls hTimed =>
      have hSpent : spent u (some { step.slot with stalled := true }) = 0 := spent_of_fresh hAfter u
      have hLeft : left (some { step.slot with stalled := true }) = 0 := left_of_fresh hAfter
      rw [hDone, if_neg (by decide)] at hNext
      rw [hDone, hStalls, controlOf_fresh hAfter, hNext]
      refine ⟨.stays rfl rfl hMemory ?_ fun hIs => ?_, ?_⟩
      · rw [hSpent, spent_of_fresh hBefore, List.length_append]
        rfl
      · rw [show step.slot.started = true from hIs] at hAfter
        cases hAfter
      · rw [hLeft]
        exact hTimed.mono (by omega)
  | runs hStarted hDone hStalls hSpent hGoOn hTimed =>
      rw [hStalls]
      by_cases hLast : step.slot.remaining = 0
      · rw [beq_iff_eq.mpr hLast] at hDone
        have hLeaves : step.slot.beats u - 1 = spent u (some s) := by omega
        rw [hDone, if_pos rfl] at hNext
        rw [hDone, hNext]
        refine ⟨.leaves (List.append_nil _) rfl ?_ hLeaves hExecute nofun, ?_⟩
        · intro r hSlot
          obtain rfl := Option.some.inj hSlot
          rfl
        · dsimp only
          rw [hExecute]
          exact hTimed.mono (by dsimp only [left]; omega)
      · rw [beq_eq_false_iff_ne.mpr hLast] at hDone
        have hLeft : left (some { step.slot with stalled := true }) = step.slot.remaining :=
          if_pos hStarted
        have hStays : spent u (some { step.slot with stalled := true }) =
            step.slot.beats u - step.slot.remaining := if_pos hStarted
        rw [hDone, if_neg (by decide)] at hNext
        rw [hDone, hGoOn hLast, hNext]
        refine ⟨.stays rfl rfl hMemory ?_ fun _ => ?_, ?_⟩
        · rw [hStays]
          dsimp only
          rw [List.append_nil]
          omega
        · change 0 < step.slot.remaining ∧ step.slot.remaining < step.slot.beats u
          omega
        · dsimp only
          rw [hLeft]
          exact hTimed

/-- So Execute pays for every tick. -/
theorem ExecuteRound.prompt {m m' : Making} {cur : Slots} {ex : Option Slot} {free : Bool}
    {control : Control} (h : ExecuteRound m ins cur true ex m' free control)
    (hIns : ∀ s, ex = some s → s.ins = some ins) (hBeats : m.pipeline.units.beats ins = u.beats ins)
    (hMemory : m.next.memory = none) (hExecute : m.next.execute = none)
    (hAlone : ∀ s, ex = some s → s.started = true → 0 < s.remaining ∧ s.remaining < s.beats u)
    (hTimed : m.pipeline.memory.Timed 1 (m.pipeline.cycle + max 1 (left ex : Int))) :
    Paid u m ex m' free control ∧
      m'.pipeline.memory.Timed 1 (m.pipeline.cycle + 1 + left m'.next.execute) := by
  cases h with
  | empty =>
      refine ⟨.leaves rfl ?_ ?_ ?_ hExecute fun _ => rfl, ?_⟩
      · rw [hMemory]
      · rw [hMemory]
        simp
      · rw [hMemory]
        rfl
      · rw [hExecute]
        exact hTimed
  | @moves s step hMove =>
      rw [Bool.and_true]
      exact (hMove.beat (hIns s rfl) hBeats (hAlone s rfl) hTimed).paid hMemory hExecute rfl

end Pipeline

/-- The ticks that have been spent on what has not been retired yet. -/
def load (u : Units) (stopped : Bool) (slots : Slots) : Nat :=
  slots.decode.isSome.toNat + (slots.execute.isSome.toNat + spent u slots.execute) +
    (slots.memory.isSome.toNat + beyond u slots.memory) +
    (slots.writeback.isSome.toNat + beyond u slots.writeback) +
    if stopped then (if slots.memory.isSome then 2 else if slots.writeback.isSome then 3 else 4)
    else 0

/-- The ticks that the end of the program has cost. -/
def closing (stopped : Bool) (slots : Slots) : Nat :=
  if stopped then (if slots.memory.isSome then 2 else if slots.writeback.isSome then 3 else 4)
  else 0

/-- The load of a pipeline is what its slots have still to spend. -/
theorem load_eq (u : Units) (stopped : Bool) (slots : Slots) :
    load u stopped slots =
      slots.decode.isSome.toNat + (slots.execute.isSome.toNat + spent u slots.execute) +
        (slots.memory.isSome.toNat + beyond u slots.memory) +
        (slots.writeback.isSome.toNat + beyond u slots.writeback) + closing stopped slots := rfl

/-- Only a pipeline that has stopped fetching is closing. -/
theorem closing_running (slots : Slots) : closing false slots = 0 := rfl

/-- Behind the end of the program every tick counts, until nothing is left. -/
theorem closing_step {slots next : Slots} (hMemory : next.memory.isSome = false)
    (hWriteback : next.writeback.isSome = slots.memory.isSome)
    (hBusy : slots.memory.isSome = true ∨ slots.writeback.isSome = true) :
    closing true next = 1 + closing true slots := by
  unfold closing
  rw [hMemory, hWriteback]
  rcases hBusy with hSome | hSome <;> rw [hSome]
  · rfl
  · cases slots.memory.isSome <;> rfl

/-- Behind a stop, only Memory and Writeback have a load. -/
theorem load_stopped (u : Units) {slots : Slots} (hDecode : slots.decode = none)
    (hExecute : slots.execute = none) :
    load u true slots =
      (slots.memory.isSome.toNat + beyond u slots.memory) +
        (slots.writeback.isSome.toNat + beyond u slots.writeback) +
        if slots.memory.isSome then 2 else if slots.writeback.isSome then 3 else 4 := by
  unfold load
  rw [hDecode, hExecute, if_pos rfl]
  simp only [Option.isSome_none, Bool.toNat_false, spent, Nat.zero_add]

/-- The instruction that stops fetching leaves Execute at once. -/
theorem Prompt.execute_of_stopped {u : Units} {a : Machine} {p : Pipeline}
    (h : Prompt u p p.cycle p.slots) (hFollows : Follows a p p.registers p.slots)
    (hStopped : p.fetchStopped = true) : p.slots.execute = none := by
  cases hSlot : p.slots.execute with
  | none => rfl
  | some s =>
      have hHalted := hFollows.stopped
      rw [hStopped, hSlot] at hHalted
      cases hStarted : s.started with
      | false =>
          rw [Machine.ahead_fresh _ hStarted,
            (hFollows.back.waiting s hSlot hStarted).running] at hHalted
          cases hHalted
      | true =>
          obtain ⟨-, hPositive, hLess⟩ := h.alone s hSlot hStarted
          rw [Slot.beats_of_ins (hFollows.execute_ready s hSlot).1] at hLess
          obtain ⟨acc, hKind⟩ := Units.accelerated_of_beats (Nat.lt_of_le_of_lt hPositive hLess)
          rw [Machine.ahead_started _ hStarted, Machine.next_halted, hKind] at hHalted
          cases acc <;> cases hHalted

/-- What Decode and Fetch make of a tick, from the state `m₂` that Execute has left. -/
inductive Refilled (p : Pipeline) (m₂ m : Making) : Bool → Control → Prop
  | redirected {free : Bool} {target : Nat} (hStopped : m.pipeline.fetchStopped = p.fetchStopped)
      (hFlushes : m.pipeline.flushes = p.flushes + 1)
      (hExecute : m.next.execute = m₂.next.execute) (hDecode : m.next.decode.isSome = false)
      (hStalls : m.stalls = m₂.stalls) : Refilled p m₂ m free (.redirect target)
  | stopped {free : Bool} (hStopped : m.pipeline.fetchStopped = true)
      (hFlushes : m.pipeline.flushes = p.flushes) (hExecute : m.next.execute = m₂.next.execute)
      (hDecode : m.next.decode.isSome = false) (hStalls : m.stalls = m₂.stalls) :
      Refilled p m₂ m free .stop
  | empty {free : Bool} (hNone : p.slots.decode = none)
      (hStopped : m.pipeline.fetchStopped = p.fetchStopped)
      (hFlushes : m.pipeline.flushes = p.flushes) (hExecute : m.next.execute = m₂.next.execute)
      (hDecode : m.next.decode.isSome = !p.fetchStopped) (hStalls : m.stalls = m₂.stalls) :
      Refilled p m₂ m free .goOn
  | moves {t : Slot} (hSome : p.slots.decode.isSome = true)
      (hStopped : m.pipeline.fetchStopped = p.fetchStopped)
      (hFlushes : m.pipeline.flushes = p.flushes) (hExecute : m.next.execute = some t)
      (hFresh : t.started = false) (hDecode : m.next.decode.isSome = !p.fetchStopped)
      (hStalls : m.stalls = m₂.stalls) : Refilled p m₂ m true .goOn
  | waits {free : Bool} (hSome : p.slots.decode.isSome = true)
      (hStopped : m.pipeline.fetchStopped = p.fetchStopped)
      (hFlushes : m.pipeline.flushes = p.flushes) (hExecute : m.next.execute = m₂.next.execute)
      (hDecode : m.next.decode.isSome = true)
      (hStalls : m.stalls.length = m₂.stalls.length + free.toNat) : Refilled p m₂ m free .goOn

section Refilled

variable {u : Units} {p : Pipeline} {m₁ m₂ m : Making} {free : Bool} {control : Control}

/-- A refill leaves the work in Execute as it is. -/
theorem Refilled.left (h : Refilled p m₂ m free control)
    (hPaid : Paid u m₁ p.slots.execute m₂ free control) :
    left m.next.execute = left m₂.next.execute := by
  cases h with
  | redirected _ _ hExecute => rw [hExecute]
  | stopped _ _ hExecute => rw [hExecute]
  | empty _ _ _ hExecute => rw [hExecute]
  | waits _ _ _ hExecute => rw [hExecute]
  | moves _ _ _ hExecute hFresh =>
      rw [hExecute, hPaid.none_of_free, left_of_fresh hFresh]
      rfl

/-- Only what comes from Decode is new in Execute. -/
theorem Refilled.started (h : Refilled p m₂ m free control) {s : Slot}
    (hSlot : m.next.execute = some s) (hStarted : s.started = true) :
    m₂.next.execute = some s := by
  cases h with
  | redirected _ _ hExecute => exact hExecute.symm.trans hSlot
  | stopped _ _ hExecute => exact hExecute.symm.trans hSlot
  | empty _ _ _ hExecute => exact hExecute.symm.trans hSlot
  | waits _ _ _ hExecute => exact hExecute.symm.trans hSlot
  | moves _ _ _ hExecute hFresh =>
      obtain rfl := Option.some.inj (hExecute.symm.trans hSlot)
      rw [hFresh] at hStarted
      cases hStarted

/-- Decode is filled behind Execute. -/
theorem Refilled.filled (h : Refilled p m₂ m free control)
    (hPaid : Paid u m₁ p.slots.execute m₂ free control)
    (hOpen : m.pipeline.fetchStopped = false) (hSome : m.next.execute.isSome = true) :
    m.next.decode.isSome = true := by
  cases h with
  | redirected _ _ hExecute =>
      rw [hExecute, (hPaid.of_flush nofun).2.2.1] at hSome
      cases hSome
  | stopped hStopped =>
      rw [hStopped] at hOpen
      cases hOpen
  | empty _ hStopped _ _ hDecode => rw [hDecode, ← hStopped, hOpen, Bool.not_false]
  | moves _ hStopped _ _ _ hDecode => rw [hDecode, ← hStopped, hOpen, Bool.not_false]
  | waits _ _ _ _ hDecode => exact hDecode

/-- The tick itself is what is fetched, what waits, or what a jump or the end of the program has
cost. -/
theorem Refilled.balance (h : Refilled p m₂ m free control)
    (hPaid : Paid u m₁ p.slots.execute m₂ free control)
    (hMemory : m.next.memory = m₂.next.memory)
    (hWriteback : m.next.writeback.isSome = p.slots.memory.isSome)
    (hFilled : p.slots.execute.isSome = true →
      p.slots.decode.isSome = true ∧ p.fetchStopped = false)
    (hRunning : p.slots.decode.isSome = true → p.fetchStopped = false)
    (hBusy : p.fetchStopped = true → p.slots.memory.isSome = true ∨ p.slots.writeback.isSome = true) :
    1 + p.slots.decode.isSome.toNat + closing p.fetchStopped p.slots + 2 * p.flushes +
        (m₂.stalls.length + (m₂.next.execute.isSome.toNat + spent u m₂.next.execute)) =
      m.next.decode.isSome.toNat + closing m.pipeline.fetchStopped m.next +
        2 * m.pipeline.flushes + (!free).toNat +
        (m.stalls.length + (m.next.execute.isSome.toNat + spent u m.next.execute)) := by
  cases h with
  | redirected hStopped hFlushes hExecute hDecode hStalls =>
      obtain ⟨rfl, hEx, -⟩ := hPaid.of_flush nofun
      obtain ⟨hHere, hOpen⟩ := hFilled hEx
      rw [hStopped, hOpen, hHere, hFlushes, hExecute, hDecode, hStalls]
      simp only [closing_running, Bool.toNat_true, Bool.toNat_false, Bool.not_true]
      omega
  | stopped hStopped hFlushes hExecute hDecode hStalls =>
      obtain ⟨rfl, hEx, -, hMem⟩ := hPaid.of_flush nofun
      obtain ⟨hHere, hOpen⟩ := hFilled hEx
      have hClosing : closing true m.next = 2 := by
        unfold closing
        rw [hMemory, hMem]
        rfl
      rw [hStopped, hOpen, hHere, hFlushes, hExecute, hDecode, hStalls, hClosing]
      simp only [closing_running, Bool.toNat_true, Bool.toNat_false, Bool.not_true]
      omega
  | empty hNone hStopped hFlushes hExecute hDecode hStalls =>
      have hIdle : p.slots.execute = none := by
        refine Option.not_isSome_iff_eq_none.mp fun hSome => ?_
        have hHere := (hFilled hSome).1
        rw [hNone] at hHere
        cases hHere
      rw [hIdle] at hPaid
      obtain ⟨rfl, hMem⟩ := hPaid.of_empty
      rw [hStopped, hFlushes, hExecute, hDecode, hStalls, hNone]
      cases hIs : p.fetchStopped with
      | false =>
          simp only [closing_running, Option.isSome_none, Bool.toNat_true, Bool.toNat_false,
            Bool.not_true, Bool.not_false]
          omega
      | true =>
          rw [closing_step (by rw [hMemory, hMem]) hWriteback (hBusy hIs)]
          simp only [Option.isSome_none, Bool.toNat_false, Bool.not_true]
          omega
  | moves hSome hStopped hFlushes hExecute hFresh hDecode hStalls =>
      rw [hStopped, hFlushes, hExecute, hDecode, hStalls, hSome, hRunning hSome,
        hPaid.none_of_free, spent_of_fresh hFresh]
      simp only [closing_running, Option.isSome_none, Option.isSome_some, Bool.toNat_true,
        Bool.toNat_false, Bool.not_true, Bool.not_false, spent]
      omega
  | waits hSome hStopped hFlushes hExecute hDecode hStalls =>
      rw [hStopped, hFlushes, hExecute, hDecode, hStalls, hSome, hRunning hSome]
      simp only [closing_running, Bool.toNat_true]
      cases free <;> simp only [Bool.toNat_true, Bool.toNat_false, Bool.not_true, Bool.not_false] <;>
        omega

end Refilled

/-- Behind the end of a program that has not ended yet something is under way. -/
theorem Follows.busy_of_stopped {a : Machine} {q : Pipeline} {registers : Registers} {slots : Slots}
    (h : Follows a q registers slots) (hOpen : a.halted = false) (hStopped : q.fetchStopped = true)
    (hIdle : slots.execute = none) :
    slots.memory.isSome = true ∨ slots.writeback.isSome = true := by
  have hHalted := h.stopped
  cases hMem : slots.memory with
  | some s => exact .inl rfl
  | none =>
      cases hWb : slots.writeback with
      | some s => exact .inr rfl
      | none =>
          rw [hStopped, hMem, hWb, hIdle, Machine.past_none, Machine.past_none, Machine.ahead_none,
            hOpen] at hHalted
          cases hHalted

namespace Round

variable {u : Units} {a : Machine} {p : Pipeline} {m₁ m₂ m₃ : Making} {free₁ free₂ free₃ : Bool}
  {control : Control} {commit : Option Commit}

/-- Memory and Execute over one prompt tick. -/
theorem prompt_back (h : Round p a m₁ m₂ m₃ free₁ free₂ free₃ control commit)
    (hFrame : u.frame = a.units.frame)
    (hFollows : Follows a p p.registers p.slots) (hPrompt : Prompt u p p.cycle p.slots) :
    m₁.stalls = [] ∧ m₂.next.writeback.isSome = p.slots.memory.isSome ∧
      beyond u m₂.next.writeback = beyond u p.slots.memory ∧
      Paid u m₁ p.slots.execute m₂ free₂ control ∧
      m₂.pipeline.memory.Timed 1 (p.cycle + 1 + left m₂.next.execute) := by
  have hBack := hFollows.back.running
  have hEven : p.memory.Even := hFollows.back.rear.soundMemory.toEven
  have hIdle : p.slots.memory ≠ none → left p.slots.execute = 0 := by
    intro hMem
    unfold left
    cases hSlot : p.slots.execute with
    | none => rfl
    | some s => exact if_neg fun hStarted => hMem (hPrompt.alone s hSlot hStarted).1
  obtain ⟨hFree, hStalls, hMem, hWb, hBeyond, hTimed⟩ :=
    h.memory.prompt hEven hPrompt.timed
      (fun hMem => by rw [hIdle hMem]; exact Int.le_of_eq (Int.add_zero _)) hPrompt.fresh u
  have hExecute := h.execute
  rw [hFree] at hExecute
  have hCycle : m₁.pipeline.cycle = p.cycle := by rw [h.memory.moved.rest]
  have hSame : m₁.pipeline.units.frame = u.frame :=
    (hBack.shifted_frame (h.memory.shifted hBack)).trans hFrame.symm
  obtain ⟨hPaid, hAfter⟩ := hExecute.prompt (fun s hSlot => (hFollows.execute_ready s hSlot).1)
    (Units.beats_eq_of_frame hSame _) hMem h.memory.free.2.1
    (fun s hSlot hStarted => (hPrompt.alone s hSlot hStarted).2) (hTimed.mono (by
      rw [hCycle]
      dsimp only
      omega))
  rw [hCycle] at hAfter
  exact ⟨hStalls, by rw [hExecute.writeback, hWb], by rw [hExecute.writeback, hBeyond], hPaid,
    hAfter⟩

/-- Every round refills the pipeline. -/
theorem refilled (h : Round p a m₁ m₂ m₃ free₁ free₂ free₃ control commit)
    (hFollows : Follows a p p.registers p.slots) :
    Refilled p m₂ (madeFetch m₃ p.slots.fetch free₃ control) free₂ control := by
  obtain ⟨-, -, -, hNoDecode, -, hMoved⟩ := h.settled hFollows
  obtain ⟨-, hCauses, hStopped, hFlushes⟩ := madeFetch_pipeline m₃ p.slots.fetch free₃ control
  have hDecode := madeFetch_decode m₃ p.slots.fetch free₃ control
  obtain ⟨hExecute, -, -⟩ := madeFetch_next m₃ p.slots.fetch free₃ control
  have hAll := h.memory.moved.trans hMoved
  rw [h.decode.pipeline, hAll.fetchStopped] at hStopped hDecode
  rw [h.decode.pipeline, hAll.flushes] at hFlushes
  rw [hFollows.front.live] at hDecode
  generalize madeFetch m₃ p.slots.fetch free₃ control = m at *
  dsimp only at hStopped hFlushes hDecode
  cases h.decode.handed with
  | flushed hControl hNext hWait =>
      rw [hNext] at hDecode hExecute
      rw [hNoDecode, beq_eq_false_iff_ne.mpr hControl] at hDecode
      rw [hWait] at hCauses
      cases control with
      | goOn => exact absurd rfl hControl
      | redirect target => exact .redirected hStopped hFlushes hExecute hDecode hCauses
      | stop => exact .stopped hStopped hFlushes hExecute hDecode hCauses
  | empty hNone hNext hWait =>
      rw [hNext] at hDecode hExecute
      rw [hNoDecode] at hDecode
      refine .empty hNone hStopped hFlushes hExecute ?_ (hCauses.trans hWait)
      rw [hDecode]
      cases p.fetchStopped <;> rfl
  | moves hSome hFree hNext hFresh hWait =>
      rw [hNext] at hDecode hExecute
      dsimp only at hDecode hExecute
      rw [hNoDecode] at hDecode
      rw [hFree]
      refine .moves hSome hStopped hFlushes hExecute hFresh ?_ (hCauses.trans hWait)
      rw [hDecode]
      cases p.fetchStopped <;> rfl
  | waits hSome hNext hWait =>
      rw [hNext] at hDecode hExecute
      refine .waits hSome hStopped hFlushes hExecute hDecode ?_
      rw [hCauses, hWait]

/-- A prompt tick leaves a prompt pipeline. One tick is what is fetched, what waits, or what a jump
or the end of the program has cost. -/
theorem prompt (h : Round p a m₁ m₂ m₃ free₁ free₂ free₃ control commit)
    (hFrame : u.frame = a.units.frame) (hFollows : Follows a p p.registers p.slots)
    (hOpen : a.halted = false) (hPrompt : Prompt u p p.cycle p.slots) {m : Making}
    (hMaking : madeFetch m₃ p.slots.fetch free₃ control = m) :
    Prompt u m.pipeline (p.cycle + 1) m.next ∧
      1 + load u p.fetchStopped p.slots + 2 * p.flushes =
        m.stalls.length + load u m.pipeline.fetchStopped m.next + 2 * m.pipeline.flushes +
          (p.slots.writeback.isSome.toNat + beyond u p.slots.writeback) := by
  obtain ⟨hStalls, hWb, hBeyond, hPaid, hTimed⟩ := h.prompt_back hFrame hFollows hPrompt
  have hRefilled := h.refilled hFollows
  obtain ⟨hMemory, -⟩ := madeFetch_pipeline m₃ p.slots.fetch free₃ control
  obtain ⟨-, hMem, hWb'⟩ := madeFetch_next m₃ p.slots.fetch free₃ control
  rw [hMaking] at hRefilled hMemory hMem hWb'
  rw [h.decode.pipeline] at hMemory
  rw [h.decode.next_memory] at hMem
  rw [h.decode.next_writeback] at hWb'
  have hOpenOf : p.slots.execute.isSome = true → p.fetchStopped = false := by
    intro hSome
    refine Bool.eq_false_iff.mpr fun hIs => ?_
    rw [hPrompt.execute_of_stopped hFollows hIs] at hSome
    cases hSome
  have hRunning : p.slots.decode.isSome = true → p.fetchStopped = false := by
    intro hSome
    refine Bool.eq_false_iff.mpr fun hIs => ?_
    rw [hFollows.front.empty hIs] at hSome
    cases hSome
  refine ⟨⟨?_, ?_, fun s hSlot hStarted => ?_, hRefilled.filled hPaid⟩, ?_⟩
  · rw [hMemory, hRefilled.left hPaid]
    exact hTimed
  · rw [hMem]
    exact hPaid.fresh
  · rw [hMem]
    exact hPaid.alone s (hRefilled.started hSlot hStarted) hStarted
  · have hExecute := hPaid.balance
    have hFront := hRefilled.balance hPaid hMem (by rw [hWb', hWb])
      (fun hSome => ⟨hPrompt.filled (hOpenOf hSome) hSome, hOpenOf hSome⟩) hRunning fun hIs =>
        hFollows.busy_of_stopped hOpen hIs (hPrompt.execute_of_stopped hFollows hIs)
    rw [hStalls, List.length_nil] at hExecute
    rw [load_eq, load_eq, hMem, hWb', hWb, hBeyond]
    omega

end Round

end AccelPipe

import AccelPipe.Proofs.Pipeline.Stages

/-! The stages behind Decode over one tick: Memory makes room, Execute starts or goes on, and both
still hold the next instructions of the machine. -/
namespace AccelPipe

namespace Machine

variable (a : Machine) (ex : Option Slot)

/-- The machine after all that has started in Execute. -/
def ahead : Machine := if ex.any (·.started) then a.next else a

/-- The units after all that has started in Execute, without the stores. -/
def unitsAhead : Units := if ex.any (·.started) then a.performed.2 else a.units

/-- The address that follows the instruction in Execute. As long as it has not started, it is taken
for one that does not jump. -/
def behind : Int :=
  match ex with
  | none => a.pc
  | some s => if s.started then a.next.pc else a.pc + 4

theorem ahead_none : a.ahead none = a := rfl

theorem behind_none : a.behind none = a.pc := rfl

variable {s : Slot}

/-- An instruction that has not started has not been carried out. -/
theorem ahead_fresh (h : s.started = false) : a.ahead (some s) = a := by
  unfold ahead
  simp [h]

/-- One that has started has. -/
theorem ahead_started (h : s.started = true) : a.ahead (some s) = a.next := by
  unfold ahead
  simp [h]

theorem behind_fresh (h : s.started = false) : a.behind (some s) = a.pc + 4 := by
  unfold behind
  simp [h]

theorem behind_started (h : s.started = true) : a.behind (some s) = a.next.pc := by
  unfold behind
  simp [h]

end Machine

open Pipeline

/-- Writeback, Memory and Execute hold the next instructions of a machine, and the units are those
of the machine up to there. -/
structure Back (a : Machine) (q : Pipeline) (wb mem ex : Option Slot) : Prop where
  rear : Rear a q.memory wb mem
  started : ∀ s, ex = some s → s.started = true → s.Executed ((a.past wb).past mem)
  waiting : ∀ s, ex = some s → s.started = false →
    s.Waiting ((a.past wb).past mem) a.registers mem wb
  units : (a.past wb).pending mem q.units = ((a.past wb).past mem).unitsAhead ex

/-- Execute holds the instruction behind those in front of it, whether it has started or not. -/
theorem Back.holds {a : Machine} {p : Pipeline} {wb mem ex : Option Slot} (h : Back a p wb mem ex)
    (s : Slot) (hSlot : ex = some s) : s.Holds ((a.past wb).past mem) := by
  cases hStarted : s.started with
  | true => exact (h.started s hSlot hStarted).toHolds
  | false => exact (h.waiting s hSlot hStarted).toHolds

/-- After the tick of Memory: the instruction that was in Writeback is behind, and the one that was
in Memory is in Writeback or still in Memory. -/
structure Shifted (a : Machine) (p q : Pipeline) (wb mem wb' mem' : Option Slot) : Prop where
  rear : Rear (a.past wb) q.memory wb' mem'
  same : ((a.past wb).past wb').past mem' = (a.past wb).past mem
  units : ((a.past wb).past wb').pending mem' q.units = (a.past wb).pending mem p.units
  still : ∀ reg m, mem = some m → reg ≠ 0 → Hazard.produced m = reg →
    (Hazard.producer? mem' wb' reg).isSome = true
  clear : mem.any (·.isKind .store) = false →
    q.memory.peek = ((a.past wb).past mem).memory ∧ q.units = (a.past wb).pending mem p.units ∧
      ∀ units, ((a.past wb).past wb').pending mem' units = units

namespace Machine

/-- Showing a store to the units does not change their shape. -/
theorem pending_frame (a : Machine) (mem : Option Slot) (units : Units) :
    (a.pending mem units).frame = units.frame := by
  cases mem with
  | none => rfl
  | some s =>
      rw [pending_some]
      unfold snooped
      cases a.store with
      | none => rfl
      | some s => exact Units.frame_snoop _ _

/-- Nor does what Execute is ahead by. -/
theorem unitsAhead_frame {a : Machine} (h : a.Sound) (ex : Option Slot) :
    (a.unitsAhead ex).frame = a.units.frame := by
  unfold unitsAhead
  split
  · exact performed_frame h
  · rfl

end Machine

/-- A slot that produces a register is found in Memory or in Writeback. -/
theorem Hazard.producer?_isSome_of_mem {m : Slot} {reg : Nat} (hReg : reg ≠ 0)
    (hProduced : Hazard.produced m = reg) (wb : Option Slot) :
    (Hazard.producer? (some m) wb reg).isSome = true := by
  unfold Hazard.producer?
  rw [if_neg hReg, Option.filter_some, if_pos (beq_iff_eq.mpr hProduced)]
  rfl

/-- A register that Writeback produces is forwarded. -/
theorem Hazard.producer?_isSome_of_wb {w : Slot} {reg : Nat} (hReg : reg ≠ 0)
    (hProduced : Hazard.produced w = reg) :
    (Hazard.producer? none (some w) reg).isSome = true := by
  unfold Hazard.producer?
  rw [if_neg hReg, Option.filter_none, Option.filter_some, if_pos (beq_iff_eq.mpr hProduced)]
  rfl

namespace Back

variable {a : Machine} {p q : Pipeline} {wb mem ex : Option Slot}

/-- The units of a pipeline that stands for the machine are of its shape. -/
theorem fit (h : Back a p wb mem ex) : p.units.Fit := by
  have hSound := (h.rear.sound.past wb).past mem
  have hFrame : p.units.frame = ((a.past wb).past mem).units.frame := by
    rw [← Machine.unitsAhead_frame hSound ex, ← h.units, Machine.pending_frame]
  exact hSound.fit.of_frame hFrame

/-! Memory. -/

/-- With nothing in Memory, nothing shifts. -/
theorem shifted_empty (h : Back a p wb none ex) : Shifted a p p wb none none none where
  rear := h.rear.commit
  same := rfl
  units := rfl
  still := by simp
  clear := fun _ => ⟨h.rear.words, rfl, fun _ => rfl⟩

/-- What Memory moves on shifts with the machine. -/
theorem shifted_move {s : Slot} (h : Back a p wb (some s) ex) {step : StageStep}
    (hMove : MemoryMove p s (a.past wb).instruction step) :
    Shifted a p step.pipeline wb (some s) (if step.done then some step.slot.enter else none)
      (if step.done then none else some step.slot) := by
  have hOld := (h.rear.executed s rfl).toHolds
  have hProduced : ∀ {t : Slot} {reg : Nat}, t.Holds (a.past wb) → Hazard.produced s = reg →
      Hazard.produced t = reg := by
    intro t reg hHolds hReg
    rw [hHolds.produced, ← hOld.produced, hReg]
  rcases h.rear.memoryMove hMove with ⟨hDone, hRear, hUnits⟩ | ⟨hDone, hRear, hUnits⟩
  · rw [if_pos hDone, if_pos hDone]
    refine ⟨hRear, rfl, hUnits, ?_, ?_⟩
    · intro reg m hMem hReg hIs
      obtain rfl := Option.some.inj hMem
      exact Hazard.producer?_isSome_of_wb hReg
        (hProduced (hRear.writeback _ rfl).toHolds hIs)
    · intro _
      exact ⟨hRear.words, hUnits, fun _ => rfl⟩
  · rw [if_neg (by simp [hDone]), if_neg (by simp [hDone])]
    refine ⟨hRear, rfl, ?_, ?_, ?_⟩
    · rw [hUnits]
      rfl
    · intro reg m hMem hReg hIs
      obtain rfl := Option.some.inj hMem
      exact Hazard.producer?_isSome_of_mem hReg
        (hProduced (hRear.executed _ rfl).toHolds hIs) _
    · intro hFree
      have hNot : (a.past wb).instruction.kind ≠ .store := by
        rw [Option.any_some, hOld.isKind] at hFree
        simpa using hFree
      refine ⟨?_, ?_, fun units => Machine.snooped_of_not_store hNot units⟩
      · rw [Machine.past_some, Machine.next_memory_of_not_store hNot]
        exact hRear.words
      · rw [Machine.pending_some, Machine.snooped_of_not_store hNot]
        exact hUnits

/-! Execute. -/

/-- The units that Execute sees fit, too. -/
theorem shifted_fit {wb' mem' : Option Slot} (h : Back a p wb mem ex)
    (hShift : Shifted a p q wb mem wb' mem') : q.units.Fit := by
  have hFrame : q.units.frame = p.units.frame := by
    rw [← Machine.pending_frame ((a.past wb).past wb') mem' q.units, hShift.units,
      Machine.pending_frame]
  exact h.fit.of_frame hFrame

/-- As long as Execute has not started, the units are those of the machine, the store in Memory
aside. -/
theorem units_of_fresh {s : Slot} (h : Back a p wb mem (some s)) (hFresh : s.started = false) :
    (a.past wb).pending mem p.units = ((a.past wb).past mem).units := by
  rw [h.units]
  unfold Machine.unitsAhead
  simp [hFresh]

/-- An instruction that starts in Execute does what the machine does. -/
theorem performed {s : Slot} {wb' mem' : Option Slot} (h : Back a p wb mem (some s))
    (hShift : Shifted a p q wb mem wb' mem') (hFresh : s.started = false) {f : Hazard.Forwarding}
    (hForward : Hazard.forward ((a.past wb).past mem).instruction ⟨s.operands, s.sources⟩ mem wb = f)
    (hReady : f.ready = true) {m : Memory}
    (hBurst : Burst q ((a.past wb).past mem).instruction f.operands mem m)
    {w : Work} {units : Units}
    (hPerform : perform q.units q.memory.peek ((a.past wb).past mem).instruction f.operands s.pc =
      .ok (w, units)) :
    w = ((a.past wb).past mem).performed.1 ∧
      ((a.past wb).past wb').pending mem' units = ((a.past wb).past mem).performed.2 := by
  have hWaiting := h.waiting s rfl hFresh
  have hSound := (h.rear.sound.past wb).past mem
  have hUnits := h.units_of_fresh hFresh
  have hMachine := Machine.perform_eq hSound
  rw [h.rear.forward_operands hWaiting hForward hReady] at hBurst hPerform
  rw [hWaiting.pc] at hPerform
  cases hBurst with
  | idle hReads =>
      have hThere := perform_memory hReads q.memory.peek ((a.past wb).past mem).memory _ hPerform
      cases hMem : mem' with
      | none =>
          have hSame := hShift.units
          rw [hMem, Machine.pending_none, hUnits] at hSame
          rw [hSame, hMachine] at hThere
          rw [Except.ok.inj hThere]
          exact ⟨rfl, rfl⟩
      | some t =>
          have hSame := hShift.units
          rw [hMem, Machine.pending_some, hUnits] at hSame
          rw [Machine.pending_some]
          unfold Machine.snooped at hSame ⊢
          cases hStore : ((a.past wb).past wb').store with
          | none =>
              simp only [hStore] at hSame
              rw [hSame, hMachine] at hThere
              rw [Except.ok.inj hThere]
              exact ⟨rfl, rfl⟩
          | some st =>
              simp only [hStore] at hSame
              have hBehind := perform_snoop (h.shifted_fit hShift) hReads st.addr _ _ hThere
              rw [hSame, hMachine] at hBehind
              rw [Except.ok.inj hBehind]
              exact ⟨rfl, rfl⟩
  | taken hKind hReads hFree hGranted =>
      obtain ⟨hPeek, hSame, hPending⟩ := hShift.clear hFree
      rw [hPeek, hSame, hUnits, hMachine] at hPerform
      rw [hPending, Except.ok.inj hPerform]
      exact ⟨rfl, rfl⟩

/-- A tick of Execute: an instruction that has started is executed, any other still waits. -/
theorem executeMove {s : Slot} {wb' mem' : Option Slot} (h : Back a p wb mem (some s))
    (hShift : Shifted a p q wb mem wb' mem') {f : Hazard.Forwarding}
    (hForward : Hazard.forward ((a.past wb).past mem).instruction ⟨s.operands, s.sources⟩ mem wb = f)
    {step : StageStep} (hMove : ExecuteMove q s ((a.past wb).past mem).instruction mem f step) :
    Rear (a.past wb) step.pipeline.memory wb' mem' ∧
    ((step.slot.started = true ∧ step.slot.Executed ((a.past wb).past mem) ∧
      ((a.past wb).past wb').pending mem' step.pipeline.units =
        ((a.past wb).past mem).performed.2) ∨
    (step.slot.started = false ∧ step.done = false ∧
      step.slot.Waiting ((a.past wb).past mem) (a.past wb).registers mem' wb' ∧
      ((a.past wb).past wb').pending mem' step.pipeline.units = ((a.past wb).past mem).units)) := by
  have hRear := hShift.rear
  have hStays : s.started = false → ∀ {t : Slot}, t.pc = s.pc → t.ins = s.ins →
      t.started = s.started → t.work = s.work → t.operands = f.operands →
      t.Waiting ((a.past wb).past mem) (a.past wb).registers mem' wb' := by
    intro hFresh t hPc hIns hStarted hWork hOperands
    have hWaiting := h.waiting s rfl hFresh
    exact h.rear.forward_waiting hWaiting hForward hShift.still
      ⟨hPc.trans hWaiting.pc, hIns.trans hWaiting.ins, hWaiting.running⟩
      (hStarted.trans hFresh) (hWork.trans hWaiting.blank) hOperands
  have hUnits : s.started = false →
      ((a.past wb).past wb').pending mem' q.units = ((a.past wb).past mem).units := by
    intro hFresh
    rw [hShift.units]
    exact h.units_of_fresh hFresh
  cases hMove with
  | advances hStarted =>
      have hExecuted := h.started s rfl hStarted
      refine ⟨hRear, .inl ⟨hStarted, ⟨⟨hExecuted.pc, hExecuted.ins, hExecuted.running⟩,
        hExecuted.work⟩, ?_⟩⟩
      rw [hShift.units, h.units]
      unfold Machine.unitsAhead
      simp [hStarted]
  | unready hFresh hReady =>
      exact ⟨hRear, .inr ⟨hFresh, rfl, hStays hFresh rfl rfl rfl rfl rfl, hUnits hFresh⟩⟩
  | ordered hFresh hReady hKind hReads hAhead =>
      exact ⟨hRear, .inr ⟨hFresh, rfl, hStays hFresh rfl rfl rfl rfl rfl, hUnits hFresh⟩⟩
  | blocked hFresh hReady hKind hBlocked =>
      exact ⟨hRear.of_sameWords (Memory.sameWords_reserveBurst _ _ _ _)
          (hRear.soundMemory.reserveBurst _ _ _),
        .inr ⟨hFresh, rfl, hStays hFresh rfl rfl rfl rfl rfl, hUnits hFresh⟩⟩
  | starts hFresh hReady hBurst hPerform =>
      have hWaiting := h.waiting s rfl hFresh
      obtain ⟨hWork, hDone⟩ := h.performed hShift hFresh hForward hReady hBurst hPerform
      exact ⟨hRear.of_sameWords hBurst.words (hBurst.sound hRear.soundMemory),
        .inl ⟨rfl, ⟨⟨hWaiting.pc, hWaiting.ins, hWaiting.running⟩, hWork⟩, hDone⟩⟩

/-- What is in the stages behind Decode after the tick of Execute. -/
theorem executed_move {s : Slot} {wb' mem' : Option Slot} (h : Back a p wb mem (some s))
    (hShift : Shifted a p q wb mem wb' mem') {f : Hazard.Forwarding}
    (hForward : Hazard.forward ((a.past wb).past mem).instruction ⟨s.operands, s.sources⟩ mem wb = f)
    {step : StageStep} (hMove : ExecuteMove q s ((a.past wb).past mem).instruction mem f step) :
    Back (a.past wb) step.pipeline wb'
      (if (step.done && mem'.isNone) = true then some step.slot.enter else mem')
      (if (step.done && mem'.isNone) = true then none
        else some { step.slot with stalled := true }) := by
  obtain ⟨hRear, hCases⟩ := h.executeMove hShift hForward hMove
  by_cases hLeaves : (step.done && mem'.isNone) = true
  · rw [if_pos hLeaves, if_pos hLeaves]
    obtain ⟨hStepDone, hFree⟩ := Bool.and_eq_true_iff.mp hLeaves
    obtain rfl := Option.isNone_iff_eq_none.mp hFree
    have hSame := hShift.same
    rw [Machine.past_none] at hSame
    rcases hCases with ⟨-, hExecuted, hUnits⟩ | ⟨hFresh, hNot, -⟩
    · rw [← hSame] at hExecuted hUnits
      refine ⟨⟨hRear.sound, hRear.soundMemory, hRear.size, hRear.words, hRear.writeback, ?_⟩, by simp,
        by simp, ?_⟩
      · intro u hSlot
        obtain rfl := Option.some.inj hSlot
        exact hExecuted.enter
      · rw [Machine.pending_none] at hUnits
        rw [Machine.pending_some, Machine.past_some, hUnits]
        exact (Machine.next_units _).symm
    · rw [hNot] at hStepDone
      cases hStepDone
  · rw [if_neg hLeaves, if_neg hLeaves]
    rw [← hShift.same] at hCases
    refine ⟨hRear, ?_, ?_, ?_⟩
    · intro u hSlot hStarted
      obtain rfl := Option.some.inj hSlot
      rcases hCases with ⟨-, hExecuted, -⟩ | ⟨hFresh, -⟩
      · exact ⟨⟨hExecuted.pc, hExecuted.ins, hExecuted.running⟩, hExecuted.work⟩
      · rw [hFresh] at hStarted
        cases hStarted
    · intro u hSlot hFresh
      obtain rfl := Option.some.inj hSlot
      rcases hCases with ⟨hStarted, -⟩ | ⟨-, -, hWaiting, -⟩
      · rw [hStarted] at hFresh
        cases hFresh
      · exact ⟨⟨hWaiting.pc, hWaiting.ins, hWaiting.running⟩, hWaiting.fresh, hWaiting.blank,
          hWaiting.latched, hWaiting.unnamed⟩
    · unfold Machine.unitsAhead
      rw [Option.any_some]
      rcases hCases with ⟨hStarted, -, hUnits⟩ | ⟨hFresh, -, -, hUnits⟩
      · rw [if_pos hStarted]
        exact hUnits
      · rw [if_neg (by simp [hFresh])]
        exact hUnits

/-- With nothing in Execute, the machine is not ahead. -/
theorem executed_empty {wb' mem' : Option Slot} (h : Back a p wb mem none)
    (hShift : Shifted a p q wb mem wb' mem') : Back (a.past wb) q wb' mem' none where
  rear := hShift.rear
  started := by simp
  waiting := by simp
  units := by
    rw [hShift.units, h.units, hShift.same]

end Back

end AccelPipe

import AccelPipe.Proofs.Pipeline.Delivery
import AccelPipe.Proofs.Simulator.Ticks

/-! Forwarding delivers architectural operands. Whatever the stalls, an instruction starts in Execute
with the registers and with the memory that it would find if all instructions in front of it had been
executed one after the other; and what is handed on to it is what is later read back from the register
file. -/
namespace AccelPipe

open Pipeline

/-- The instructions in front of Execute, the oldest first. -/
def Stages.older (slots : Slots) : List Slot := slots.writeback.toList ++ slots.memory.toList

/-- The instructions from Writeback to Execute, the oldest first. -/
def Stages.rear (slots : Slots) : List Slot := slots.older ++ slots.execute.toList

/-- How many instructions come before the one in Execute, be they retired or under way. -/
def Pipeline.before (p : Pipeline) : Nat := p.retired + p.slots.older.length

/-- The place of a slot among those that are under way. -/
theorem Stages.rear_cases {slots : Slots} {i : Nat} {s : Slot} (h : slots.rear[i]? = some s) :
    slots.writeback = some s ∧ i = 0 ∨
      slots.memory = some s ∧ i = slots.writeback.toList.length ∨
      slots.execute = some s ∧ i = slots.older.length := by
  have hOnly : ∀ {slot : Option Slot} {k : Nat}, slot.toList[k]? = some s → slot = some s ∧ k = 0 := by
    intro slot k hHeld
    cases slot with
    | none => cases hHeld
    | some t =>
        cases k with
        | zero => exact ⟨hHeld, rfl⟩
        | succ k => cases hHeld
  unfold rear at h
  rw [List.getElem?_append] at h
  split at h
  · unfold older at h
    rw [List.getElem?_append] at h
    split at h
    · exact .inl (hOnly h)
    · obtain ⟨hSlot, hPlace⟩ := hOnly h
      exact .inr (.inl ⟨hSlot, by omega⟩)
  · obtain ⟨hSlot, hPlace⟩ := hOnly h
    exact .inr (.inr ⟨hSlot, by omega⟩)

/-- A state in which operands are delivered as the machine `a` has them, which the reference machine
`r` is in step with. -/
structure Pipeline.Delivers (a : Machine) (r : Reference) (p : Pipeline) : Prop where
  /-- The register file has what the retired instructions have written. -/
  registers : p.status.finished = false → p.registers = (Machine.after p.retired a).registers
  /-- Every result on its way is a word. -/
  word : ∀ s ∈ p.slots.rear, ∀ v, s.result = some v → -0x80000000 ≤ v ∧ v ≤ 0x7fffffff
  /-- A result on its way is what the register file will have once its instruction has retired. -/
  readBack : ∀ i s v, p.slots.rear[i]? = some s → s.result = some v → Hazard.produced s ≠ 0 →
    (Machine.after (p.retired + i + 1) a).registers.read (Hazard.produced s) = v
  /-- An instruction that starts has what all instructions before it leave. -/
  starts : ∀ start, p.starting? = some start → start.Delivered (Machine.after p.before a) ∧
    (p.tick.2.slots.execute = some { start.step.slot with stalled := true } ∨
      p.tick.2.slots.memory = some start.step.slot.enter)
  /-- No other instruction starts in Execute. -/
  waits : p.status.finished = false → p.starting? = none →
    ∀ s, p.slots.execute = some s → s.started = false →
      ∃ t, p.tick.2.slots.execute = some t ∧ t.started = false
  /-- What they leave is what they leave behind in the reference machine, as far as that can go. -/
  sequential : ∀ start, p.starting? = some start → r.Exact p.before →
    (Reference.after p.before r).registers = (Machine.after p.before a).registers ∧
      (Reference.after p.before r).peek = (Machine.after p.before a).memory

namespace Follows

variable {a : Machine} {p : Pipeline}

/-- The machine that comes to the instruction in Execute. -/
theorem after_before (a : Machine) (p : Pipeline) :
    ((Machine.after p.retired a).past p.slots.writeback).past p.slots.memory =
      Machine.after p.before a := by
  unfold Pipeline.before Stages.older
  rw [Machine.after_past, Machine.after_past, List.length_append, Nat.add_assoc]

/-- A result on its way is that of the machine, in whatever stage it is. -/
theorem finished_result
    (h : Follows (Machine.after p.retired a) p p.registers p.slots) {i : Nat} {s : Slot} {v : Int}
    (hHeld : p.slots.rear[i]? = some s) (hValue : s.result = some v) :
    (Machine.after (p.retired + i) a).Sound ∧ s.Holds (Machine.after (p.retired + i) a) ∧
      (Machine.after (p.retired + i) a).finished.result = some v := by
  have hSound := h.back.rear.sound
  rcases Stages.rear_cases hHeld with ⟨hSlot, rfl⟩ | ⟨hSlot, rfl⟩ | ⟨hSlot, rfl⟩
  · have hFinished := h.back.rear.writeback s hSlot
    exact ⟨hSound, hFinished.toHolds, hFinished.result.symm.trans hValue⟩
  · have hExecuted := h.back.rear.executed s hSlot
    have hBehind := hSound.past p.slots.writeback
    rw [Machine.after_past] at hExecuted hBehind
    exact ⟨hBehind, hExecuted.toHolds, hExecuted.finished_result hBehind hValue⟩
  · have hBehind := (hSound.past p.slots.writeback).past p.slots.memory
    cases hStarted : s.started with
    | true =>
        have hExecuted := h.back.started s hSlot hStarted
        rw [after_before] at hExecuted hBehind
        exact ⟨hBehind, hExecuted.toHolds, hExecuted.finished_result hBehind hValue⟩
    | false =>
        have hBlank : s.result = none :=
          congrArg Work.result (h.back.waiting s hSlot hStarted).blank
        rw [hBlank] at hValue
        cases hValue

/-- None of the instructions before the one in Execute ends the run. -/
theorem runs_before (h : Follows (Machine.after p.retired a) p p.registers p.slots)
    (hRuns : (Machine.after p.retired a).halted = false → a.Runs p.retired) {s : Slot}
    (hSlot : p.slots.execute = some s) : a.Runs p.before := by
  have hOpen := (h.back.holds s hSlot).running
  obtain ⟨hFirst, hSecond⟩ := h.back.rear.goes_on hOpen
  have hBehind := (hRuns hFirst).past hSecond
  rw [Machine.after_past] at hOpen
  unfold Pipeline.before Stages.older
  rw [List.length_append, ← Nat.add_assoc]
  exact hBehind.past hOpen

end Follows

theorem Standing.delivers {a : Machine} {r : Reference} {p : Pipeline} (h : Standing a p)
    (hStep : InStep r a) : p.Delivers a r := by
  cases h with
  | ended hStatus hSlots =>
      have hNone : p.slots.execute = none := by
        rw [hSlots]
        rfl
      have hRear : p.slots.rear = [] := by
        rw [hSlots]
        rfl
      have hStart : ∀ start, p.starting? = some start → False := by
        intro start hIs
        obtain ⟨-, s, hSlot, -⟩ := of_starting? hIs
        cases hNone.symm.trans hSlot
      refine ⟨fun hRun => ?_, ?_, ?_, fun start hIs => (hStart start hIs).elim, fun hRun => ?_,
        fun start hIs => (hStart start hIs).elim⟩
      · rw [hStatus] at hRun
        cases hRun
      · intro s hHeld
        rw [hRear] at hHeld
        cases hHeld
      · intro i s v hHeld
        rw [hRear] at hHeld
        cases hHeld
      · rw [hStatus] at hRun
        cases hRun
  | underWay hRuns hFollows =>
      refine ⟨fun _ => hFollows.registers, fun s hHeld v hValue => ?_,
        fun i s v hHeld hValue hProduced => ?_, fun start hIs => ?_,
        fun hRun hNone s hSlot hFresh => ?_, fun start hIs hExact => ?_⟩
      · obtain ⟨i, hPlace⟩ := List.mem_iff_getElem?.mp hHeld
        obtain ⟨hSound, -, hResult⟩ := hFollows.finished_result hPlace hValue
        have hWord := isWord_iff.mp (Machine.finished_result hSound hResult)
        omega
      · obtain ⟨hSound, hHolds, hResult⟩ := hFollows.finished_result hHeld hValue
        rw [Machine.after_succ]
        exact Machine.read_next_of_produces hSound hProduced hHolds.produced.symm hResult
      · obtain ⟨hRun, s, hSlot, hFresh⟩ := of_starting? hIs
        rcases hFollows.starts_or_waits hRun hSlot hFresh with
          ⟨start', hIs', hDelivered, hNext⟩ | ⟨hNone, -⟩
        · obtain rfl := Option.some.inj (hIs.symm.trans hIs')
          rw [Follows.after_before] at hDelivered
          exact ⟨hDelivered, hNext⟩
        · cases hIs.symm.trans hNone
      · rcases hFollows.starts_or_waits hRun hSlot hFresh with ⟨start, hIs, -⟩ | ⟨-, hWaits⟩
        · cases hNone.symm.trans hIs
        · exact hWaits
      · obtain ⟨-, s, hSlot, -⟩ := of_starting? hIs
        obtain ⟨hNow, -⟩ := hStep.after hExact (hFollows.runs_before hRuns hSlot)
        exact ⟨hNow.registers, hNow.words⟩

namespace Simulator

variable {c : Config} {program : Image} {data : List (Int × List Int)}

/-- In every state that ticks lead to, an instruction starts in Execute with the operands, and with the
words of memory, that sequential execution of all instructions before it leaves; and results on their way
are words, which are later read back from the register file. -/
theorem ticks_deliver (hValid : c.Valid) (hSize : program.size < 0x40000000) (k : Nat) :
    ((loaded c program data).ticks k).pipeline.Delivers (c.machine program data)
      (c.reference program data) :=
  (ticks_standing hValid k).delivers (hValid.inStep hSize data)

/-- A run in which a store is handed the word that it stores, and a convolution waits for it. -/
theorem ticks_deliver_of_stored_window :
    (((loaded .small #[0x00500093, 0x00102023, 0x0010010e, 0x73] []).ticks
        3).pipeline.starting?.map (·.step.slot.operands.get? .rs2)) = some (some 5) ∧
      (((loaded .small #[0x00500093, 0x00102023, 0x0010010e, 0x73] []).ticks
        4).pipeline.starting?.isNone) = true ∧
      (((loaded .small #[0x00500093, 0x00102023, 0x0010010e, 0x73] []).ticks
        5).pipeline.starting?.map (·.words .conv2d (Instruction.decode 0x0010010e))) =
          some [5, 0, 0, 0, 0, 0, 0, 0, 0] ∧
      ∀ k, ((loaded .small #[0x00500093, 0x00102023, 0x0010010e, 0x73] []).ticks
        k).pipeline.Delivers (Config.small.machine #[0x00500093, 0x00102023, 0x0010010e, 0x73] [])
          (Config.small.reference #[0x00500093, 0x00102023, 0x0010010e, 0x73] []) :=
  ⟨by decide +kernel, by decide +kernel, by decide +kernel,
    fun k => ticks_deliver Config.valid_small (by decide) k⟩

end Simulator

end AccelPipe

import AccelPipe.Proofs.Pipeline.Tracks

/-! One tick of Memory and one of Execute, as seen from the sequential machine: what leaves a stage
has its work done, what stays keeps waiting for it. -/
namespace AccelPipe

namespace Pipeline

/-- Nothing has happened but what a stage may do: memory, units, coverage, and faults that are not
grave. -/
structure Moved (p q : Pipeline) : Prop where
  rest : q = { p with
    memory := q.memory, units := q.units, coverage := q.coverage, faultLog := q.faultLog }
  grave : q.grave = p.grave

theorem Moved.refl (p : Pipeline) : Moved p p := ⟨rfl, rfl⟩

theorem Moved.trans {p q r : Pipeline} (h : Moved p q) (h' : Moved q r) : Moved p r := by
  refine ⟨?_, h'.grave.trans h.grave⟩
  rw [h'.rest, h.rest]

theorem Moved.program {p q : Pipeline} (h : Moved p q) : q.program = p.program := by
  rw [h.rest]

theorem Moved.registers {p q : Pipeline} (h : Moved p q) : q.registers = p.registers := by
  rw [h.rest]

theorem Moved.flushes {p q : Pipeline} (h : Moved p q) : q.flushes = p.flushes := by
  rw [h.rest]

theorem Moved.fetchStopped {p q : Pipeline} (h : Moved p q) : q.fetchStopped = p.fetchStopped := by
  rw [h.rest]

theorem Aside.units {p q : Pipeline} (h : Aside p q) : q.units = p.units := by
  rw [h.rest]

theorem Aside.moved {p q : Pipeline} (h : Aside p q) : Moved p q := by
  refine ⟨?_, h.grave⟩
  have hUnits := h.units
  rw [hUnits]
  exact h.rest

theorem MemoryMove.moved {p : Pipeline} {s : Slot} {ins : Instruction} {step : StageStep}
    (h : MemoryMove p s ins step) : Moved p step.pipeline := by
  cases h with
  | passes => exact Moved.refl p
  | @refused addr q _ _ _ hBegin =>
      have hAside := aside_begunAccess p addr (ins.kind == .load)
      rw [hBegin] at hAside
      exact (hAside.bankConflict _ _ _).moved
  | waits _ _ hAccess => exact hAccess.aside.moved
  | loads _ _ hAccess => exact hAccess.aside.moved.trans ⟨rfl, rfl⟩
  | stores _ _ _ hAccess => exact hAccess.aside.moved.trans ⟨rfl, rfl⟩

theorem ExecuteMove.moved {p : Pipeline} {s : Slot} {ins : Instruction} {mem : Option Slot}
    {f : Hazard.Forwarding} {step : StageStep} (h : ExecuteMove p s ins mem f step) :
    Moved p step.pipeline := by
  cases h with
  | advances => exact Moved.refl p
  | unready => exact Moved.refl p
  | ordered => exact Moved.refl p
  | blocked => exact ⟨rfl, rfl⟩
  | starts => exact ⟨rfl, rfl⟩

end Pipeline

open Pipeline

namespace Rear

variable {a : Machine} {memory : Memory} {wb mem : Option Slot}

/-- Memory with the same words is as good. -/
theorem of_sameWords (h : Rear a memory wb mem) {memory' : Memory}
    (hWords : memory.SameWords memory') (hSound : memory'.Sound) : Rear a memory' wb mem where
  sound := h.sound
  soundMemory := hSound
  size := hWords.size.trans h.size
  words := hWords.peek.trans h.words
  writeback := h.writeback
  executed := h.executed

/-- The instruction in Writeback is committed. -/
theorem commit (h : Rear a memory wb none) : Rear (a.past wb) memory none none where
  sound := h.sound.past wb
  soundMemory := h.soundMemory
  size := h.size.trans (a.past_size wb).symm
  words := by
    rw [Machine.past_none]
    exact h.words
  writeback := by simp
  executed := by simp

/-- The instruction in Memory has nothing to do there. -/
theorem pass {s t : Slot} (h : Rear a memory wb (some s))
    (hLoad : (a.past wb).instruction.kind ≠ .load) (hStore : (a.past wb).instruction.kind ≠ .store)
    (hHolds : t.Holds (a.past wb)) (hWork : t.work = s.work) :
    Rear (a.past wb) memory (some t) none where
  sound := h.sound.past wb
  soundMemory := h.soundMemory
  size := h.size.trans (a.past_size wb).symm
  words := by
    rw [h.words]
    rw [Machine.past_some, Machine.next_memory_of_not_store hStore]
  writeback := by
    intro u hSlot
    obtain rfl := Option.some.inj hSlot
    refine ⟨hHolds, ?_⟩
    rw [hWork, (h.executed s rfl).work, Machine.finished_of_not_load hLoad]
  executed := by simp

/-- The load in Memory has its word. -/
theorem load {s t : Slot} (h : Rear a memory wb (some s))
    (hLoad : (a.past wb).instruction.kind = .load) {addr : Int} (hAddr : s.memAddr = some addr)
    (hHolds : t.Holds (a.past wb))
    (hWork : t.work = { s.work with result := some (memory.peek addr) }) :
    Rear (a.past wb) memory (some t) none where
  sound := h.sound.past wb
  soundMemory := h.soundMemory
  size := h.size.trans (a.past_size wb).symm
  words := by
    rw [h.words]
    rw [Machine.past_some, Machine.next_memory_of_not_store (by rw [hLoad]; nofun)]
  writeback := by
    intro u hSlot
    obtain rfl := Option.some.inj hSlot
    refine ⟨hHolds, ?_⟩
    have hExecuted := (h.executed s rfl).work
    obtain ⟨addr', hAddr', hFinished⟩ := Machine.finished_of_load (h.sound.past wb) hLoad
    have hSame : addr' = addr := by
      rw [← hExecuted] at hAddr'
      exact Option.some.inj (hAddr'.symm.trans hAddr)
    rw [hWork, hFinished, hExecuted, hSame, h.words]
  executed := by simp

/-- The store in Memory has reached it. -/
theorem store {s t : Slot} (h : Rear a memory wb (some s))
    (hStore : (a.past wb).instruction.kind = .store) {addr value : Int}
    (hAddr : s.memAddr = some addr) (hValue : s.storeValue = some value)
    (hHolds : t.Holds (a.past wb)) (hWork : t.work = s.work) :
    Rear (a.past wb) (memory.poke addr value) (some t) none ∧
      (a.past wb).store = some ⟨memory.wrap addr, s32 value⟩ := by
  have hExecuted := (h.executed s rfl).work
  obtain ⟨addr', value', hAddr', hValue', hIs⟩ :=
    Machine.store_of_store (h.sound.past wb) hStore
  obtain rfl : addr' = addr := by
    rw [← hExecuted] at hAddr'
    exact Option.some.inj (hAddr'.symm.trans hAddr)
  obtain rfl : value' = value := by
    rw [← hExecuted] at hValue'
    exact Option.some.inj (hValue'.symm.trans hValue)
  rw [h.wrap]
  refine ⟨⟨h.sound.past wb, h.soundMemory.poke _ _, ?_, ?_, ?_, by simp⟩, hIs⟩
  · exact h.size.trans (a.past_size wb).symm
  · funext at'
    rw [Memory.peek_poke h.soundMemory.toEven, h.wrap, h.wrap, h.words]
    rw [Machine.past_some, Machine.next_memory_of_store hIs]
    simp only [Int.natCast_inj]
  · intro u hSlot
    obtain rfl := Option.some.inj hSlot
    refine ⟨hHolds, ?_⟩
    rw [hWork, hExecuted, Machine.finished_of_not_load (by rw [hStore]; nofun)]

/-- The instruction in Memory is still at work. -/
theorem stay {s t : Slot} (h : Rear a memory wb (some s)) (hHolds : t.Holds (a.past wb))
    (hWork : t.work = s.work) : Rear (a.past wb) memory none (some t) where
  sound := h.sound.past wb
  soundMemory := h.soundMemory
  size := h.size.trans (a.past_size wb).symm
  words := by
    rw [Machine.past_none]
    exact h.words
  writeback := by simp
  executed := by
    intro u hSlot
    obtain rfl := Option.some.inj hSlot
    exact ⟨hHolds, hWork.trans (h.executed s rfl).work⟩

/-- A tick of Memory: its instruction either is finished and has changed memory and units as the
machine does, or stays. -/
theorem memoryMove {q : Pipeline} {s : Slot} {step : StageStep} (h : Rear a q.memory wb (some s))
    (hMove : MemoryMove q s (a.past wb).instruction step) :
    (step.done = true ∧ Rear (a.past wb) step.pipeline.memory (some step.slot.enter) none ∧
      step.pipeline.units = (a.past wb).snooped q.units) ∨
    (step.done = false ∧ Rear (a.past wb) step.pipeline.memory none (some step.slot) ∧
      step.pipeline.units = q.units) := by
  have hHolds := (h.executed s rfl).toHolds
  cases hMove with
  | passes hLoad hStore =>
      exact .inl ⟨rfl, h.pass hLoad hStore ⟨hHolds.pc, hHolds.ins, hHolds.running⟩ rfl,
        (Machine.snooped_of_not_store hStore _).symm⟩
  | @refused addr q' hKind hAddr hStarted hBegin =>
      have hAside := aside_begunAccess q addr ((a.past wb).instruction.kind == .load)
      rw [hBegin] at hAside
      have hRear := h.of_sameWords hAside.words (hAside.sound h.soundMemory)
      exact .inr ⟨rfl, hRear.stay ⟨hHolds.pc, hHolds.ins, hHolds.running⟩ rfl, hAside.units⟩
  | waits hKind hAddr hAccess hLeft =>
      have hAside := hAccess.aside
      have hRear := h.of_sameWords hAside.words (hAside.sound h.soundMemory)
      exact .inr ⟨rfl, hRear.stay ⟨hHolds.pc, hHolds.ins, hHolds.running⟩ rfl, hAside.units⟩
  | @loads addr q' left hKind hAddr hAccess hLeft =>
      have hAside := hAccess.aside
      have hRear := h.of_sameWords hAside.words (hAside.sound h.soundMemory)
      have hValue := Memory.completeLoad_value hRear.soundMemory addr
      have hDone := hRear.of_sameWords (Memory.sameWords_completeLoad q'.memory addr)
        (hRear.soundMemory.completeLoad addr)
      refine .inl ⟨rfl, hDone.load hKind hAddr ⟨hHolds.pc, hHolds.ins, hHolds.running⟩ ?_, ?_⟩
      · rw [(Memory.sameWords_completeLoad q'.memory addr).peek, ← hValue]
        rfl
      · rw [Machine.snooped_of_not_store (by rw [hKind]; nofun)]
        exact hAside.units
  | @stores addr value q' left hKind hAddr hValue hAccess hLeft =>
      have hAside := hAccess.aside
      have hRear := h.of_sameWords hAside.words (hAside.sound h.soundMemory)
      obtain ⟨hDone, hStore⟩ := hRear.store hKind hAddr hValue
        (t := Slot.enter { s with started := true, remaining := left - 1, done := true })
        ⟨hHolds.pc, hHolds.ins, hHolds.running⟩ rfl
      refine .inl ⟨rfl, hDone, ?_⟩
      unfold Machine.snooped
      rw [hStore]
      exact congrArg (fun units => units.snoop (q'.memory.wrap addr : Nat)) hAside.units

end Rear

end AccelPipe

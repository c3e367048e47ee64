import AccelPipe.Proofs.Pipeline.Moves

/-! How a pipeline stands for the sequential machine. Committed is what the machine `a` has done;
the slots from Writeback to Execute hold the instructions that come next, each with as much of its
work done as its stage has done. Registers are those of `a`, memory is that of the machine after
the instruction in Writeback, and the units are ahead by all that has started in Execute. -/
namespace AccelPipe

namespace Machine

/-- The machine after the instruction of a slot, if the slot holds one. -/
def past (a : Machine) (slot : Option Slot) : Machine := if slot.isSome then a.next else a

@[simp] theorem past_none (a : Machine) : a.past none = a := rfl

@[simp] theorem past_some (a : Machine) (s : Slot) : a.past (some s) = a.next := rfl

theorem past_program (a : Machine) (slot : Option Slot) : (a.past slot).program = a.program := by
  cases slot with
  | none => rfl
  | some s => exact a.next_program

theorem past_size (a : Machine) (slot : Option Slot) : (a.past slot).size = a.size := by
  cases slot with
  | none => rfl
  | some s => exact a.next_size

/-- The machine is sound behind every slot. -/
theorem Sound.past {a : Machine} (h : a.Sound) (slot : Option Slot) : (a.past slot).Sound := by
  cases slot with
  | none => exact h
  | some s => exact h.next

/-- The units once the store of the next instruction has reached memory. -/
def snooped (a : Machine) (units : Units) : Units :=
  match a.store with
  | some s => units.snoop s.addr
  | none => units

/-- The units of the machine are those that have performed the instruction, shown its store. -/
theorem next_units (a : Machine) : a.next.units = a.snooped a.performed.2 := by
  unfold next snooped
  rfl

/-- Units are shown stores only. -/
theorem snooped_of_not_store {a : Machine} (h : a.instruction.kind ≠ .store) (units : Units) :
    a.snooped units = units := by
  unfold snooped
  rw [store_of_not_store h]

/-- The units once the instruction in Memory has done its part. -/
def pending (a : Machine) (mem : Option Slot) (units : Units) : Units :=
  if mem.isSome then a.snooped units else units

@[simp] theorem pending_none (a : Machine) (units : Units) : a.pending none units = units := rfl

@[simp] theorem pending_some (a : Machine) (s : Slot) (units : Units) :
    a.pending (some s) units = a.snooped units := rfl

end Machine

namespace Slot

/-- A slot holds the instruction that a machine comes to next. -/
structure Holds (s : Slot) (a : Machine) : Prop where
  pc : s.pc = a.pc
  ins : s.ins = some a.instruction
  running : a.halted = false

/-- Execute has done its part. -/
structure Executed (s : Slot) (a : Machine) : Prop extends s.Holds a where
  work : s.work = a.performed.1

/-- Memory has done its part, too. -/
structure Finished (s : Slot) (a : Machine) : Prop extends s.Holds a where
  work : s.work = a.finished

/-- Execute has not started. Every operand is that of the register file, or a producer in front
will still hand it on. -/
structure Waiting (s : Slot) (a : Machine) (registers : Registers) (mem wb : Option Slot) :
    Prop extends s.Holds a where
  fresh : s.started = false
  blank : s.work = {}
  latched : ∀ o reg, (o, reg) ∈ a.instruction.sources →
    (Hazard.producer? mem wb reg).isSome = true ∨ s.operands.get? o = some (registers.read reg)
  unnamed : ∀ o, a.instruction.sources.lookup o = none → s.operands.get? o = none

variable {s : Slot} {a : Machine}

/-- A slot that enters a stage holds the same instruction. -/
theorem Holds.enter (h : s.Holds a) : s.enter.Holds a := ⟨h.pc, h.ins, h.running⟩

theorem Executed.enter (h : s.Executed a) : s.enter.Executed a := ⟨h.toHolds.enter, h.work⟩

/-- A slot produces the register of its instruction. -/
theorem Holds.produced (h : s.Holds a) : Hazard.produced s = a.instruction.produces := by
  unfold Hazard.produced
  rw [h.ins]

/-- A slot is of the kind of its instruction. -/
theorem Holds.isKind (h : s.Holds a) (k : Kind) : s.isKind k = (a.instruction.kind == k) :=
  isKind_of_ins h.ins k

/-- A finished slot has the final result, -/
theorem Finished.result (h : s.Finished a) : s.result = a.finished.result :=
  congrArg Work.result h.work

/-- one that has been executed the result of that. -/
theorem Executed.result (h : s.Executed a) : s.result = a.performed.1.result :=
  congrArg Work.result h.work

/-- A value that is there behind Execute is the one that is written back. -/
theorem Executed.finished_result (h : s.Executed a) (hSound : a.Sound) {v : Int}
    (hValue : s.result = some v) : a.finished.result = some v := by
  have hResult : a.performed.1.result = some v := h.result.symm.trans hValue
  have hNotLoad : a.instruction.kind ≠ .load := by
    intro hLoad
    rw [(Machine.performed_fits hSound).pending hLoad] at hResult
    cases hResult
  rw [Machine.finished_of_not_load hNotLoad]
  exact hResult

end Slot

/-- Writeback and Memory hold the next instructions of a machine. -/
structure Rear (a : Machine) (memory : Memory) (wb mem : Option Slot) : Prop where
  sound : a.Sound
  soundMemory : memory.Sound
  size : memory.size = a.size
  words : memory.peek = (a.past wb).memory
  writeback : ∀ s, wb = some s → s.Finished a
  executed : ∀ s, mem = some s → s.Executed (a.past wb)

namespace Rear

variable {a : Machine} {memory : Memory} {wb mem : Option Slot}

/-- Memory wraps addresses as the machine does. -/
theorem wrap (h : Rear a memory wb mem) (addr : Int) : memory.wrap addr = (a.past wb).wrap addr := by
  unfold Memory.wrap Machine.wrap
  rw [h.size, Machine.past_size]

/-! What is handed on to an operand is what the machine has in its register. -/

/-- What Writeback does not produce is in the registers already. -/
theorem read_past_wb (h : Rear a memory wb mem) {reg : Nat}
    (hNot : reg = 0 ∨ ∀ w, wb = some w → Hazard.produced w ≠ reg) :
    (a.past wb).registers.read reg = a.registers.read reg := by
  cases wb with
  | none => rfl
  | some w =>
      apply Machine.read_next_of_not
      rcases hNot with hZero | hNot
      · exact .inl hZero
      · right
        rw [← (h.writeback w rfl).produced]
        exact hNot w rfl

/-- What Memory does not produce either is there behind it, too. -/
theorem read_past_mem (h : Rear a memory wb mem) {reg : Nat}
    (hNot : reg = 0 ∨ ∀ m, mem = some m → Hazard.produced m ≠ reg) :
    ((a.past wb).past mem).registers.read reg = (a.past wb).registers.read reg := by
  cases mem with
  | none => rfl
  | some m =>
      apply Machine.read_next_of_not
      rcases hNot with hZero | hNot
      · exact .inl hZero
      · right
        rw [← (h.executed m rfl).produced]
        exact hNot m rfl

/-- A register that Writeback writes has its value there. -/
theorem written (h : Rear a memory wb mem) {w : Slot} (hWb : wb = some w) {reg : Nat}
    (hReg : reg ≠ 0) (hProduced : Hazard.produced w = reg) :
    ∃ v, w.result = some v ∧ (a.past wb).registers.read reg = v := by
  subst hWb
  have hFinished := h.writeback w rfl
  have hProduces : a.instruction.produces = reg := hFinished.produced.symm.trans hProduced
  have hWrites : a.instruction.writesRd = true := by
    unfold Instruction.produces at hProduces
    split at hProduces
    · assumption
    · exact absurd hProduces.symm hReg
  obtain ⟨v, hValue⟩ := Machine.finished_written h.sound hWrites
  exact ⟨v, hFinished.result.trans hValue,
    Machine.read_next_of_produces h.sound hReg hProduces hValue⟩

/-- A value in Memory is that of the register that is going to be written. -/
theorem handed (h : Rear a memory wb mem) {m : Slot} (hMem : mem = some m) {reg : Nat}
    (hReg : reg ≠ 0) (hProduced : Hazard.produced m = reg) {v : Int} (hValue : m.result = some v) :
    ((a.past wb).past mem).registers.read reg = v := by
  subst hMem
  have hExecuted := h.executed m rfl
  have hSound := h.sound.past wb
  exact Machine.read_next_of_produces hSound hReg (hExecuted.produced.symm.trans hProduced)
    (hExecuted.finished_result hSound hValue)

/-- The operands of an instruction that is ready in Execute are those of the machine. -/
theorem forward_operands (h : Rear a memory wb mem) {s : Slot}
    (hWaiting : s.Waiting ((a.past wb).past mem) a.registers mem wb) {f : Hazard.Forwarding}
    (hForward : Hazard.forward ((a.past wb).past mem).instruction ⟨s.operands, s.sources⟩ mem wb = f)
    (hReady : f.ready = true) : f.operands = ((a.past wb).past mem).operands := by
  subst hForward
  rw [Hazard.forward_ready_iff] at hReady
  apply OperandMap.ext_get?
  intro o
  unfold Machine.operands
  rw [Registers.get?_operands]
  cases hLookup : ((a.past wb).past mem).instruction.sources.lookup o with
  | none =>
      rw [Hazard.get?_forward, hLookup]
      exact hWaiting.unnamed o hLookup
  | some reg =>
      have hMem := mem_of_lookup hLookup
      have hHas := hReady _ hMem
      dsimp only [Option.map_some] at hHas ⊢
      rw [Hazard.get?_forward_of_lookup hLookup]
      rcases Hazard.producer?_cases mem wb reg with
        ⟨m, path, hIn, hReg, hProduced, hProducer⟩ |
        ⟨w, path, hIn, hReg, hProduced, hNot, hProducer⟩ | ⟨hNone, hProducer⟩
      · rw [hProducer, Hazard.forwarded?_of_producer hProducer] at hHas
        obtain ⟨v, hValue⟩ := Option.isSome_iff_exists.mp (hHas rfl)
        rw [Hazard.forwarded?_of_producer hProducer, hValue,
          h.handed hIn hReg hProduced hValue]
        rfl
      · obtain ⟨v, hValue, hRead⟩ := h.written hIn hReg hProduced
        rw [Hazard.forwarded?_of_producer hProducer, hValue, h.read_past_mem (.inr hNot), hRead]
        rfl
      · rw [Hazard.forwarded?_of_none hProducer]
        rcases hWaiting.latched o reg hMem with hSome | hLatched
        · rw [hProducer] at hSome
          cases hSome
        · rw [h.read_past_mem (hNone.imp id And.left), h.read_past_wb (hNone.imp id And.right)]
          exact hLatched

/-- An instruction that stays in Execute without starting waits on, whatever has moved on in front
of it. -/
theorem forward_waiting (h : Rear a memory wb mem) {s : Slot}
    (hWaiting : s.Waiting ((a.past wb).past mem) a.registers mem wb) {f : Hazard.Forwarding}
    (hForward : Hazard.forward ((a.past wb).past mem).instruction ⟨s.operands, s.sources⟩ mem wb = f)
    {mem' wb' : Option Slot}
    (hStill : ∀ reg m, mem = some m → reg ≠ 0 → Hazard.produced m = reg →
      (Hazard.producer? mem' wb' reg).isSome = true)
    {t : Slot} (hHolds : t.Holds ((a.past wb).past mem)) (hFresh : t.started = false)
    (hBlank : t.work = {}) (hOperands : t.operands = f.operands) :
    t.Waiting ((a.past wb).past mem) (a.past wb).registers mem' wb' := by
  subst hForward
  refine ⟨hHolds, hFresh, hBlank, ?_, ?_⟩
  · intro o reg hMem
    have hLookup := lookup_of_mem (Instruction.sources_nodup _) hMem
    rcases Hazard.producer?_cases mem wb reg with
      ⟨m, path, hIn, hReg, hProduced, hProducer⟩ |
      ⟨w, path, hIn, hReg, hProduced, hNot, hProducer⟩ | ⟨hNone, hProducer⟩
    · exact .inl (hStill reg m hIn hReg hProduced)
    · right
      obtain ⟨v, hValue, hRead⟩ := h.written hIn hReg hProduced
      rw [hOperands, Hazard.get?_forward_of_lookup hLookup,
        Hazard.forwarded?_of_producer hProducer, hValue, hRead]
      rfl
    · right
      rcases hWaiting.latched o reg hMem with hSome | hLatched
      · rw [hProducer] at hSome
        cases hSome
      · rw [hOperands, Hazard.get?_forward_of_lookup hLookup,
          Hazard.forwarded?_of_none hProducer, h.read_past_wb (hNone.imp id And.right)]
        exact hLatched
  · intro o hLookup
    rw [hOperands, Hazard.get?_forward, hLookup]
    exact hWaiting.unnamed o hLookup

/-- Decode reads the registers as they are after the instruction in Writeback. -/
theorem readOperands (h : Rear a memory wb mem) (ins : Instruction) (o : Operand) :
    (Hazard.readOperands ins a.registers wb).operands.get? o =
      (ins.sources.lookup o).map (a.past wb).registers.read := by
  rw [Hazard.get?_readOperands]
  cases ins.sources.lookup o with
  | none => rfl
  | some reg =>
      refine congrArg some ?_
      cases hWb : wb with
      | none => rfl
      | some w =>
          unfold Hazard.writtenBack?
          change (Option.getD (if reg ≠ 0 ∧ Hazard.produced w = reg then
            Hazard.ready? (some w) else none) _) = _
          by_cases hWritten : reg ≠ 0 ∧ Hazard.produced w = reg
          · obtain ⟨v, hValue, hRead⟩ := h.written hWb hWritten.1 hWritten.2
            rw [hWb] at hRead
            rw [if_pos hWritten, hRead]
            unfold Hazard.ready?
            change (Option.getD (if Hazard.produced w = 0 then none else w.result) _) = _
            rw [if_neg (by rw [hWritten.2]; exact hWritten.1), hValue]
            rfl
          · rw [if_neg hWritten]
            have hNot : reg = 0 ∨ ∀ w', wb = some w' → Hazard.produced w' ≠ reg := by
              by_cases hZero : reg = 0
              · exact .inl hZero
              · refine .inr fun w' hIn hEq => hWritten ⟨hZero, ?_⟩
                rw [hWb] at hIn
                rw [Option.some.inj hIn]
                exact hEq
            have hRead := h.read_past_wb hNot
            rw [hWb] at hRead
            exact hRead.symm

end Rear

end AccelPipe

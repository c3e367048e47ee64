import AccelPipe.Proofs.Pipeline.Rounds

/-! A tick never fails, commits what the machine does next, and leaves a pipeline that stands for
the machine after the commit. -/
namespace AccelPipe

open Pipeline

/-- A pipeline, with these registers and slots, stands for a machine. -/
structure Follows (a : Machine) (q : Pipeline) (registers : Registers) (slots : Slots) : Prop where
  back : Back a q slots.writeback slots.memory slots.execute
  registers : registers = a.registers
  program : q.program = a.program
  flushes : q.flushes =
    (((a.past slots.writeback).past slots.memory).ahead slots.execute).flushes
  stopped : q.fetchStopped =
    (((a.past slots.writeback).past slots.memory).ahead slots.execute).halted
  front : Front q.program q.fetchStopped
    (((a.past slots.writeback).past slots.memory).behind slots.execute) slots.decode slots.fetch

/-- The stages of one tick, with what the machine `a` has in them. -/
structure Round (p : Pipeline) (a : Machine) (afterMemory afterExecute afterDecode : Making)
    (memoryFree executeFree decodeFree : Bool) (control : Control) (commit : Option Commit) :
    Prop where
  memory : MemoryRound { p with status := .running } (a.past p.slots.writeback).instruction
    p.slots.memory afterMemory memoryFree
  execute : ExecuteRound afterMemory
    ((a.past p.slots.writeback).past p.slots.memory).instruction p.slots memoryFree p.slots.execute
    afterExecute executeFree control
  decode : DecodeRound afterExecute p.slots memoryFree executeFree control p.slots.decode
    afterDecode decodeFree
  committed : commit.map Commit.timeless = p.slots.writeback.map fun _ => a.commit
  cycle : ∀ c, commit = some c → c.cycle = p.cycle
  make : p.make = .ok (madeFetch afterDecode p.slots.fetch decodeFree control, commit)

/-- The record of a finished instruction is the commit of the machine. -/
theorem Slot.Finished.commitOf {a : Machine} {s : Slot} (h : s.Finished a) (p : Pipeline)
    (hSound : a.Sound) (hWrap : ∀ addr, p.memory.wrap addr = a.wrap addr) :
    ∃ c, p.commitOf s = .ok c ∧ c.timeless = a.commit ∧ c.cycle = p.cycle := by
  have hDecoded : s.decoded = .ok a.instruction := Slot.decoded_iff.mpr h.ins
  have hResult : s.result = a.finished.result := h.result
  have hAddr : s.memAddr = a.finished.memAddr := congrArg Work.memAddr h.work
  have hValue : s.storeValue = a.finished.storeValue := congrArg Work.storeValue h.work
  have hTaken : s.taken = a.finished.taken := congrArg Work.taken h.work
  have hTarget : s.target = a.finished.target := congrArg Work.target h.work
  have hSaturated : s.saturated = a.finished.saturated := congrArg Work.saturated h.work
  have hNotMissing : (a.instruction.writesRd && s.result.isNone) = false := by
    by_cases hWrites : a.instruction.writesRd = true
    · obtain ⟨v, hIs⟩ := Machine.finished_written hSound hWrites
      rw [hResult, hIs]
      simp
    · rw [Bool.not_eq_true] at hWrites
      rw [hWrites]
      rfl
  have hRecord : ∀ store : Option Store, store = a.store →
      Commit.timeless
        { cycle := p.cycle, seq := s.seq, pc := s.pc, ins := a.instruction
          rd := if a.instruction.writesRd then a.instruction.rd else 0
          value := if a.instruction.writesRd then s.result else none
          store, taken := s.taken, target := s.target, saturated := s.saturated
          paths := ForwardPath.all.filter fun path =>
            (s.sources.toList.map (·.2)).contains path } = a.commit := by
    rintro _ rfl
    unfold Commit.timeless Machine.commit
    rw [h.pc, hResult, hTaken, hTarget, hSaturated]
  unfold Pipeline.commitOf
  rw [hDecoded]
  by_cases hKind : a.instruction.kind = .store
  · obtain ⟨addr, value, hIsAddr, hIsValue, hStore⟩ := Machine.store_of_store hSound hKind
    have hFinished := Machine.finished_of_not_load (a := a) (by rw [hKind]; nofun)
    refine ⟨_, ?_, hRecord (some ⟨p.memory.wrap addr, s32 value⟩) ?_, rfl⟩
    · rw [ok_bind, if_pos hKind, hAddr, hValue, hFinished, hIsAddr, hIsValue]
      change (if (a.instruction.writesRd && s.result.isNone) = true then _ else _) = _
      rw [hNotMissing]
      rfl
    · rw [hWrap, hStore]
  · refine ⟨_, ?_, hRecord none (Machine.store_of_not_store hKind).symm, rfl⟩
    rw [ok_bind, if_neg hKind]
    change (if (a.instruction.writesRd && s.result.isNone) = true then _ else _) = _
    rw [hNotMissing]
    rfl

/-! What the rounds of Memory and Execute leave behind. -/

namespace Pipeline

variable {a : Machine} {p : Pipeline} {wb mem ex : Option Slot}

/-- Memory moves its slot on with the machine. -/
theorem MemoryRound.shifted (hBack : Back a p wb mem ex) {m : Making} {free : Bool}
    (h : MemoryRound p (a.past wb).instruction mem m free) :
    Shifted a p m.pipeline wb mem m.next.writeback m.next.memory := by
  cases h with
  | empty => exact hBack.shifted_empty
  | @moves s step hMove =>
      have hShift := hBack.shifted_move hMove
      cases hDone : step.done <;> rw [hDone] at hShift <;> exact hShift

/-- Memory is free behind the stage if its slot has gone. -/
theorem MemoryRound.free {ins : Instruction} {m : Making} {free : Bool}
    (h : MemoryRound p ins mem m free) :
    free = m.next.memory.isNone ∧ m.next.execute = none ∧ m.next.decode = none ∧
      m.next.fetch = none := by
  cases h with
  | empty => exact ⟨rfl, rfl, rfl, rfl⟩
  | @moves s step hMove => cases step.done <;> exact ⟨rfl, rfl, rfl, rfl⟩

theorem MemoryRound.moved {ins : Instruction} {m : Making} {free : Bool}
    (h : MemoryRound p ins mem m free) : Moved p m.pipeline := by
  cases h with
  | empty => exact Moved.refl p
  | moves hMove => exact hMove.moved

/-- The stages behind Decode after the tick of Execute. -/
structure Settled (a : Machine) (m₁ m₂ : Making) (wb mem ex : Option Slot) (free : Bool)
    (control : Control) : Prop where
  back : Back (a.past wb) m₂.pipeline m₂.next.writeback m₂.next.memory m₂.next.execute
  told : Told ((a.past wb).past mem) ex (((a.past wb).past m₂.next.writeback).past m₂.next.memory)
    m₂.next.execute control
  free : free = m₂.next.execute.isNone
  decode : m₂.next.decode = none
  fetch : m₂.next.fetch = none
  moved : Moved m₁.pipeline m₂.pipeline

/-- Execute settles what Decode is told. -/
theorem ExecuteRound.settled (hBack : Back a p wb mem ex) {m₁ m₂ : Making} {cur : Slots}
    {free₁ free₂ : Bool} {control : Control}
    (hShift : Shifted a p m₁.pipeline wb mem m₁.next.writeback m₁.next.memory)
    (hFree : free₁ = m₁.next.memory.isNone ∧ m₁.next.execute = none ∧ m₁.next.decode = none ∧
      m₁.next.fetch = none)
    (hWb : cur.writeback = wb) (hMem : cur.memory = mem)
    (h : ExecuteRound m₁ ((a.past wb).past mem).instruction cur free₁ ex m₂ free₂ control) :
    Settled a m₁ m₂ wb mem ex free₂ control := by
  obtain ⟨hMemoryFree, hNoExecute, hNoDecode, hNoFetch⟩ := hFree
  cases h with
  | empty =>
      refine ⟨?_, ?_, ?_, hNoDecode, hNoFetch, Moved.refl _⟩
      · rw [hNoExecute]
        exact hBack.executed_empty hShift
      · rw [hNoExecute]
        exact Back.told_empty hShift
      · rw [hNoExecute]
        rfl
  | @moves s step hMove =>
      rw [hWb, hMem] at hMove
      have hAfter := hBack.executed_move hShift rfl hMove
      have hTold := hBack.told_move hShift rfl hMove
      rw [← hMemoryFree] at hAfter hTold
      cases hLeaves : (step.done && free₁) <;> rw [hLeaves] at hAfter hTold
      · exact ⟨hAfter, hTold, rfl, hNoDecode, hNoFetch, hMove.moved⟩
      · refine ⟨?_, ?_, ?_, hNoDecode, hNoFetch, hMove.moved⟩
        · simp only [if_true] at hAfter ⊢
          rw [hNoExecute]
          exact hAfter
        · simp only [if_true] at hTold ⊢
          rw [hNoExecute]
          exact hTold
        · simp only [if_true]
          rw [hNoExecute]
          rfl

end Pipeline

/-- The pipeline may be marked as running. -/
theorem Back.running {a : Machine} {p : Pipeline} {wb mem ex : Option Slot}
    (h : Back a p wb mem ex) : Back a { p with status := .running } wb mem ex :=
  ⟨h.rear, h.started, h.waiting, h.units⟩

namespace Follows

variable {a : Machine} {p : Pipeline}

/-- What Memory needs of its slot. -/
theorem memory_ready (h : Follows a p p.registers p.slots) (s : Slot)
    (hSlot : p.slots.memory = some s) :
    s.ins = some (a.past p.slots.writeback).instruction ∧
      ((a.past p.slots.writeback).instruction.kind = .load ∨
        (a.past p.slots.writeback).instruction.kind = .store → ∃ addr, s.memAddr = some addr) ∧
      ((a.past p.slots.writeback).instruction.kind = .store → ∃ v, s.storeValue = some v) := by
  have hExecuted := h.back.rear.executed s hSlot
  have hFits := Machine.performed_fits (h.back.rear.sound.past p.slots.writeback)
  have hAddr : s.memAddr = (a.past p.slots.writeback).performed.1.memAddr :=
    congrArg Work.memAddr hExecuted.work
  have hValue : s.storeValue = (a.past p.slots.writeback).performed.1.storeValue :=
    congrArg Work.storeValue hExecuted.work
  rw [hAddr, hValue]
  exact ⟨hExecuted.ins, hFits.address, hFits.value⟩

/-- What Execute needs of its slot. -/
theorem execute_ready (h : Follows a p p.registers p.slots) (s : Slot)
    (hSlot : p.slots.execute = some s) :
    s.ins = some ((a.past p.slots.writeback).past p.slots.memory).instruction ∧
      (s.started = false → s.work = {}) ∧
      (s.started = false →
        (Hazard.forward ((a.past p.slots.writeback).past p.slots.memory).instruction
          ⟨s.operands, s.sources⟩ p.slots.memory p.slots.writeback).ready = true →
        (Hazard.forward ((a.past p.slots.writeback).past p.slots.memory).instruction
          ⟨s.operands, s.sources⟩ p.slots.memory p.slots.writeback).operands.Complete
          ((a.past p.slots.writeback).past p.slots.memory).instruction) := by
  by_cases hStarted : s.started = true
  · refine ⟨(h.back.started s hSlot hStarted).ins, ?_, ?_⟩
    · intro hFresh
      rw [hStarted] at hFresh
      cases hFresh
    · intro hFresh
      rw [hStarted] at hFresh
      cases hFresh
  · have hWaiting := h.back.waiting s hSlot (Bool.not_eq_true _ ▸ hStarted)
    refine ⟨hWaiting.ins, fun _ => hWaiting.blank, fun _ hReady => ?_⟩
    rw [h.back.rear.forward_operands hWaiting rfl hReady]
    exact Registers.complete_operands _ _

/-- A tick of a pipeline that stands for a machine, with what Memory and Execute make in it. -/
theorem round_made (h : Follows a p p.registers p.slots) (hRun : p.status.finished = false) :
    ∃ m₁ m₂ m₃ free₁ free₂ free₃ control commit,
      Round p a m₁ m₂ m₃ free₁ free₂ free₃ control commit ∧
      makeMemory { pipeline := { p with status := .running } } p.slots.memory = .ok (m₁, free₁) ∧
      makeExecute m₁ p.slots free₁ = .ok (m₂, free₂, control) := by
  have hBack := h.back
  have hHoldsMem : ∀ s, p.slots.memory = some s → ∃ ins, s.ins = some ins :=
    fun s hSlot => ⟨_, (hBack.rear.executed s hSlot).ins⟩
  have hHoldsEx : ∀ s, p.slots.execute = some s → ∃ ins, s.ins = some ins :=
    fun s hSlot => ⟨_, (h.execute_ready s hSlot).1⟩
  obtain ⟨commit, hCommit, hCommitted, hCycle⟩ :
      ∃ commit, p.slots.writeback.mapM p.commitOf = .ok commit ∧
        commit.map Commit.timeless = p.slots.writeback.map (fun _ => a.commit) ∧
        ∀ c, commit = some c → c.cycle = p.cycle := by
    cases hSlot : p.slots.writeback with
    | none => exact ⟨none, rfl, rfl, by simp⟩
    | some s =>
        obtain ⟨c, hIs, hTimeless, hCycle⟩ :=
          (hBack.rear.writeback s hSlot).commitOf p hBack.rear.sound (by
            intro addr
            unfold Memory.wrap Machine.wrap
            rw [hBack.rear.size])
        refine ⟨some c, ?_, congrArg some hTimeless, ?_⟩
        · change (some <$> p.commitOf s : Except Failure (Option Commit)) = _
          rw [hIs]
          rfl
        · intro c' hSome
          rw [← Option.some.inj hSome]
          exact hCycle
  obtain ⟨m₁, free₁, hMemory, hMemoryRound⟩ :=
    makeMemory_round { p with status := .running } h.memory_ready
  have hFit : m₁.pipeline.units.Fit :=
    hBack.running.shifted_fit (hMemoryRound.shifted hBack.running)
  obtain ⟨m₂, free₂, control, hExecute, hExecuteRound⟩ :=
    makeExecute_round free₁ hFit h.execute_ready hHoldsMem
  obtain ⟨m₃, free₃, hDecode, hDecodeRound⟩ :=
    makeDecode_round m₂ free₁ free₂ control hHoldsEx hHoldsMem
  refine ⟨m₁, m₂, m₃, free₁, free₂, free₃, control, commit,
    ⟨hMemoryRound, hExecuteRound, hDecodeRound, hCommitted, hCycle, ?_⟩, hMemory, hExecute⟩
  unfold make
  rw [if_neg (by simp [hRun])]
  change (p.slots.writeback.mapM p.commitOf >>= fun commit => _) = _
  rw [hCommit, ok_bind, hMemory, ok_bind]
  change (makeExecute m₁ p.slots free₁ >>= fun r => _) = _
  rw [hExecute, ok_bind]
  change (makeDecode m₂ p.slots free₁ free₂ control >>= fun r => _) = _
  rw [hDecode, ok_bind]
  change (makeFetch m₃ p.slots.fetch free₃ control >>= fun m => _) = _
  rw [makeFetch_eq]
  rfl

/-- Every tick of a pipeline that follows the machine is such a round: no stage fails. -/
theorem round (h : Follows a p p.registers p.slots) (hRun : p.status.finished = false) :
    ∃ m₁ m₂ m₃ free₁ free₂ free₃ control commit,
      Round p a m₁ m₂ m₃ free₁ free₂ free₃ control commit := by
  obtain ⟨_, _, _, _, _, _, _, _, hRound, -⟩ := h.round_made hRun
  exact ⟨_, _, _, _, _, _, _, _, hRound⟩

end Follows

namespace Pipeline

/-- What the stages of a tick leave alone until the commit. -/
structure Staged (p q : Pipeline) : Prop where
  rest : q = { p with
    status := .running, memory := q.memory, units := q.units, coverage := q.coverage
    faultLog := q.faultLog, seq := q.seq, fetched := q.fetched, flushes := q.flushes
    fetchStopped := q.fetchStopped }
  grave : q.grave = p.grave

namespace Staged

variable {p q : Pipeline}

theorem running (h : Staged p q) : q.status = .running := by rw [h.rest]

theorem cycle (h : Staged p q) : q.cycle = p.cycle := by rw [h.rest]

theorem registers (h : Staged p q) : q.registers = p.registers := by rw [h.rest]

theorem config (h : Staged p q) : q.config = p.config := by rw [h.rest]

theorem program (h : Staged p q) : q.program = p.program := by rw [h.rest]

theorem reference (h : Staged p q) : q.reference = p.reference := by rw [h.rest]

theorem retired (h : Staged p q) : q.retired = p.retired := by rw [h.rest]

theorem stalls (h : Staged p q) : q.stalls = p.stalls := by rw [h.rest]

theorem forwards (h : Staged p q) : q.forwards = p.forwards := by rw [h.rest]

theorem commitLog (h : Staged p q) : q.commitLog = p.commitLog := by rw [h.rest]

theorem commits (h : Staged p q) : q.commits = p.commits := congrArg List.reverse h.commitLog

theorem trace (h : Staged p q) : q.trace = p.trace := by
  rw [h.rest]
  rfl

end Staged

theorem Staged.of_moved {p q : Pipeline} (h : Moved { p with status := .running } q) :
    Staged p q := by
  refine ⟨?_, h.grave⟩
  have hRest := h.rest
  rw [hRest]

/-- Decode leaves the rest of the pipeline alone. -/
theorem DecodeRound.pipeline {m m' : Making} {cur : Slots} {memoryFree executeFree free : Bool}
    {control : Control} {slot : Option Slot}
    (h : DecodeRound m cur memoryFree executeFree control slot m' free) :
    m'.pipeline = m.pipeline := by
  cases h <;> rfl

/-- Fetch does not commit anything either. -/
theorem Staged.madeFetch {p : Pipeline} {m : Making} (h : Staged p m.pipeline) (slot : Option Slot)
    (free : Bool) (control : Control) :
    Staged p (Pipeline.madeFetch m slot free control).pipeline := by
  have hRest := h.rest
  unfold Pipeline.madeFetch followOn
  cases control with
  | redirect target =>
      refine ⟨?_, h.grave⟩
      dsimp only [fetchFrom, covered]
      rw [hRest]
  | stop =>
      refine ⟨?_, h.grave⟩
      dsimp only
      rw [hRest]
  | goOn =>
      cases slot with
      | none => exact h
      | some s =>
          dsimp only
          split
          · exact h
          · split
            · refine ⟨?_, h.grave⟩
              dsimp only [fetchFrom]
              rw [hRest]
            · exact h

end Pipeline

namespace Round

variable {a : Machine} {p : Pipeline} {m₁ m₂ m₃ : Making} {free₁ free₂ free₃ : Bool}
  {control : Control} {commit : Option Commit}

/-- The stages before Decode have settled what it is told. -/
theorem settled (h : Round p a m₁ m₂ m₃ free₁ free₂ free₃ control commit)
    (hFollows : Follows a p p.registers p.slots) :
    Settled a m₁ m₂ p.slots.writeback p.slots.memory p.slots.execute free₂ control :=
  h.execute.settled hFollows.back.running (h.memory.shifted hFollows.back.running) h.memory.free
    rfl rfl

/-- The stages of a tick leave the commit to its end. -/
theorem staged (h : Round p a m₁ m₂ m₃ free₁ free₂ free₃ control commit)
    (hFollows : Follows a p p.registers p.slots) :
    Staged p (madeFetch m₃ p.slots.fetch free₃ control).pipeline := by
  have hMoved := h.memory.moved.trans (h.settled hFollows).moved
  rw [← h.decode.pipeline] at hMoved
  exact (Staged.of_moved hMoved).madeFetch _ _ _

end Round

/-- Decode hands its instruction on to Execute with the registers as they will be. -/
theorem Back.enter {a : Machine} {p q : Pipeline} {wb mem ex wb' mem' : Option Slot}
    (hOld : Back a p wb mem ex) (h : Back (a.past wb) q wb' mem' none) {s : Slot}
    (hRegisters : q.registers = a.registers)
    (hPc : s.pc = (((a.past wb).past wb').past mem').pc)
    (hIns : s.ins.getD (Instruction.decode s.word) = (((a.past wb).past wb').past mem').instruction)
    (hRunning : (((a.past wb).past wb').past mem').halted = false) (hBlank : s.work = {}) :
    Back (a.past wb) q wb' mem' (some (q.reading wb s).enter) where
  rear := h.rear
  started := by
    intro t hSlot hStarted
    rw [← Option.some.inj hSlot] at hStarted
    cases hStarted
  waiting := by
    intro t hSlot _
    obtain rfl := Option.some.inj hSlot
    have hRead : ∀ o, (q.reading wb s).enter.operands.get? o =
        ((((a.past wb).past wb').past mem').instruction.sources.lookup o).map
          (a.past wb).registers.read := by
      intro o
      rw [← hIns]
      unfold reading
      dsimp only [Slot.enter]
      rw [hRegisters, hOld.rear.readOperands]
    refine ⟨⟨hPc, congrArg some hIns, hRunning⟩, rfl, hBlank, ?_, ?_⟩
    · intro o reg hMem
      right
      rw [hRead, lookup_of_mem (Instruction.sources_nodup _) hMem]
      rfl
    · intro o hLookup
      rw [hRead, hLookup]
      rfl
  units := h.units

/-- Fetch fills Decode if that has become free, and stays otherwise. -/
theorem Front.madeFetch {m : Making} {behind : Int} {fe : Option Slot} {free : Bool}
    (h : Front m.pipeline.program m.pipeline.fetchStopped behind m.next.decode fe)
    (hFree : free = m.next.decode.isNone) (hNext : m.next.fetch = none) :
    Front m.pipeline.program m.pipeline.fetchStopped behind
      (Pipeline.madeFetch m fe free .goOn).next.decode
      (Pipeline.madeFetch m fe free .goOn).next.fetch := by
  unfold Pipeline.madeFetch followOn
  cases fe with
  | none =>
      dsimp only
      rw [hNext]
      exact h
  | some s =>
      obtain ⟨hPc, hIns, hBlank⟩ := h.fetch s rfl
      have hOpen : m.pipeline.fetchStopped = false := by
        have hLive := h.live
        simpa using hLive
      dsimp only
      rw [if_neg (by simp [hOpen])]
      by_cases hDecode : free = true
      · rw [if_pos hDecode]
        have hNone : m.next.decode = none := by
          rw [hDecode] at hFree
          exact Option.isNone_iff_eq_none.mp hFree.symm
        rw [hNone] at hPc
        refine ⟨?_, ?_, ?_, ?_⟩
        · intro t hSlot
          obtain rfl := Option.some.inj hSlot
          refine ⟨hPc, ?_, hBlank⟩
          change s.ins.getD _ = _
          rw [hIns, ← show s.pc = behind from hPc]
          rfl
        · intro t hSlot
          obtain rfl := Option.some.inj hSlot
          refine ⟨?_, rfl, rfl⟩
          change s.pc + 4 = behind + 4
          rw [show s.pc = behind from hPc]
        · rw [hOpen]
          rfl
        · intro hStopped
          rw [hOpen] at hStopped
          cases hStopped
      · rw [if_neg hDecode]
        refine ⟨h.decode, ?_, ?_, h.empty⟩
        · intro t hSlot
          obtain rfl := Option.some.inj hSlot
          exact ⟨hPc, hIns, hBlank⟩
        · rw [hOpen]
          rfl

/-- Fetch leaves the stages behind it alone. -/
theorem madeFetch_next (m : Making) (fe : Option Slot) (free : Bool) (control : Control) :
    (madeFetch m fe free control).next.execute = m.next.execute ∧
      (madeFetch m fe free control).next.memory = m.next.memory ∧
      (madeFetch m fe free control).next.writeback = m.next.writeback := by
  unfold madeFetch followOn
  cases control with
  | redirect target => exact ⟨rfl, rfl, rfl⟩
  | stop => exact ⟨rfl, rfl, rfl⟩
  | goOn =>
      cases fe with
      | none => exact ⟨rfl, rfl, rfl⟩
      | some s =>
          dsimp only
          split
          · exact ⟨rfl, rfl, rfl⟩
          · split <;> exact ⟨rfl, rfl, rfl⟩

/-- Without a redirect, Fetch only counts. -/
theorem madeFetch_goOn (m : Making) (fe : Option Slot) (free : Bool) :
    (madeFetch m fe free .goOn).pipeline =
      { m.pipeline with
        seq := (madeFetch m fe free .goOn).pipeline.seq
        fetched := (madeFetch m fe free .goOn).pipeline.fetched } := by
  unfold madeFetch followOn
  cases fe with
  | none => rfl
  | some s =>
      dsimp only
      split
      · rfl
      · split <;> rfl

/-- What stands for the machine does so in every pipeline with the same memory and units. -/
theorem Back.of_eq {a : Machine} {p q : Pipeline} {wb mem ex wb' mem' ex' : Option Slot}
    (h : Back a p wb mem ex) (hMemory : q.memory = p.memory) (hUnits : q.units = p.units)
    (hWb : wb' = wb) (hMem : mem' = mem) (hEx : ex' = ex) : Back a q wb' mem' ex' := by
  subst hWb hMem hEx
  refine ⟨?_, h.started, h.waiting, ?_⟩
  · rw [hMemory]
    exact h.rear
  · rw [hUnits]
    exact h.units

/-- The stages behind Fetch stand for the machine, and Fetch follows. -/
theorem Follows.madeFetch {a : Machine} {m : Making} {fe : Option Slot} {free : Bool}
    (hBack : Back a m.pipeline m.next.writeback m.next.memory m.next.execute)
    (hProgram : m.pipeline.program = a.program)
    (hFlushes : m.pipeline.flushes =
      (((a.past m.next.writeback).past m.next.memory).ahead m.next.execute).flushes)
    (hStopped : m.pipeline.fetchStopped =
      (((a.past m.next.writeback).past m.next.memory).ahead m.next.execute).halted)
    (hFront : Front m.pipeline.program m.pipeline.fetchStopped
      (((a.past m.next.writeback).past m.next.memory).behind m.next.execute) m.next.decode fe)
    (hFree : free = m.next.decode.isNone) (hNext : m.next.fetch = none) :
    Follows a (Pipeline.madeFetch m fe free .goOn).pipeline a.registers
      (Pipeline.madeFetch m fe free .goOn).next := by
  obtain ⟨hEx, hMem, hWb⟩ := madeFetch_next m fe free .goOn
  have hRest := madeFetch_goOn m fe free
  have hFetch := hFront.madeFetch hFree hNext
  refine ⟨hBack.of_eq (by rw [hRest]) (by rw [hRest]) hWb hMem hEx, rfl, ?_, ?_, ?_, ?_⟩
  · rw [hRest]
    exact hProgram
  · rw [hRest, hEx, hMem, hWb]
    exact hFlushes
  · rw [hRest, hEx, hMem, hWb]
    exact hStopped
  · rw [hRest, hEx, hMem, hWb]
    exact hFetch

/-- Nothing has been told to Decode and Fetch: they go on. -/
theorem Pipeline.DecodeRound.follows {a : Machine} {p : Pipeline} {wb mem ex id fe : Option Slot}
    {m m' : Making} {cur : Slots} {free₁ free₂ free₃ : Bool} (hOld : Back a p wb mem ex)
    (hBack : Back (a.past wb) m.pipeline m.next.writeback m.next.memory m.next.execute)
    (hRegisters : m.pipeline.registers = a.registers)
    (hProgram : m.pipeline.program = (a.past wb).program)
    (hFlushes : m.pipeline.flushes =
      ((((a.past wb).past m.next.writeback).past m.next.memory).ahead m.next.execute).flushes)
    (hStopped : m.pipeline.fetchStopped =
      ((((a.past wb).past m.next.writeback).past m.next.memory).ahead m.next.execute).halted)
    (hFront : Front m.pipeline.program m.pipeline.fetchStopped
      ((((a.past wb).past m.next.writeback).past m.next.memory).behind m.next.execute) id fe)
    (hFree : free₂ = m.next.execute.isNone) (hNoDecode : m.next.decode = none)
    (hNoFetch : m.next.fetch = none) (hWb : cur.writeback = wb)
    (h : DecodeRound m cur free₁ free₂ .goOn id m' free₃) :
    Follows (a.past wb) (Pipeline.madeFetch m' fe free₃ .goOn).pipeline (a.past wb).registers
      (Pipeline.madeFetch m' fe free₃ .goOn).next := by
  cases h with
  | empty =>
      refine Follows.madeFetch hBack hProgram hFlushes hStopped ?_ ?_ hNoFetch
      · rw [hNoDecode]
        exact hFront
      · rw [hNoDecode]
        rfl
  | @moves s hExecuteFree hReason =>
      obtain ⟨hPc, hIns, hBlank⟩ := hFront.decode s rfl
      have hNone : m.next.execute = none := by
        rw [hExecuteFree] at hFree
        exact Option.isNone_iff_eq_none.mp hFree.symm
      rw [hNone] at hBack hFlushes hStopped hFront hPc hIns
      rw [Machine.ahead_none] at hFlushes hStopped
      rw [Machine.behind_none] at hFront hPc hIns
      have hOpen : m.pipeline.fetchStopped = false := by
        cases hIs : m.pipeline.fetchStopped with
        | false => rfl
        | true => cases hFront.empty hIs
      have hFresh : (m.pipeline.reading cur.writeback s).enter.started = false := rfl
      refine Follows.madeFetch ?_ hProgram ?_ ?_ ?_ ?_ hNoFetch
      · rw [hWb]
        refine hOld.enter hBack hRegisters hPc ?_ (hStopped.symm.trans hOpen) hBlank
        rw [hIns, hProgram]
        unfold Machine.instruction
        rw [Machine.past_program _ m.next.memory, Machine.past_program _ m.next.writeback]
      · rw [Machine.ahead_fresh _ hFresh]
        exact hFlushes
      · rw [Machine.ahead_fresh _ hFresh]
        exact hStopped
      · rw [Machine.behind_fresh _ hFresh]
        dsimp only
        rw [hNoDecode]
        refine ⟨by simp, ?_, hFront.live, fun _ => rfl⟩
        intro t hSlot
        exact hFront.fetch t hSlot
      · dsimp only
        rw [hNoDecode]
        rfl
  | @waits s reason hReason hStays =>
      obtain ⟨hPc, hIns, hBlank⟩ := hFront.decode s rfl
      refine Follows.madeFetch hBack hProgram hFlushes hStopped ?_ rfl hNoFetch
      refine ⟨?_, hFront.fetch, hFront.live, ?_⟩
      · intro t hSlot
        obtain rfl := Option.some.inj hSlot
        exact ⟨hPc, hIns, hBlank⟩
      · intro hIs
        cases hFront.empty hIs
  | flushed hControl => exact absurd rfl hControl

namespace Round

variable {a : Machine} {p : Pipeline} {m₁ m₂ m₃ : Making} {free₁ free₂ free₃ : Bool}
  {control : Control} {commit : Option Commit}

/-- After a tick the pipeline stands for the machine after the commit. -/
theorem follows (h : Round p a m₁ m₂ m₃ free₁ free₂ free₃ control commit)
    (hFollows : Follows a p p.registers p.slots) :
    Follows (a.past p.slots.writeback) (madeFetch m₃ p.slots.fetch free₃ control).pipeline
      (a.past p.slots.writeback).registers (madeFetch m₃ p.slots.fetch free₃ control).next := by
  obtain ⟨hBack, hTold, hExecuteFree, hNoDecode, hNoFetch, hMoved⟩ := h.settled hFollows
  have hAll := h.memory.moved.trans hMoved
  have hProgram : m₂.pipeline.program = (a.past p.slots.writeback).program := by
    rw [hAll.program, Machine.past_program]
    exact hFollows.program
  have hRegisters : m₂.pipeline.registers = a.registers := hAll.registers.trans hFollows.registers
  have hFlushes := hAll.flushes.trans hFollows.flushes
  have hStopped := hAll.fetchStopped.trans hFollows.stopped
  have hDecode := h.decode
  cases hTold with
  | goOn hBehind hHalted hTaken =>
      have hFront : Front m₂.pipeline.program m₂.pipeline.fetchStopped
          ((((a.past p.slots.writeback).past m₂.next.writeback).past m₂.next.memory).behind
            m₂.next.execute) p.slots.decode p.slots.fetch := by
        rw [hBehind, hAll.program, hAll.fetchStopped]
        exact hFollows.front
      exact hDecode.follows hFollows.back hBack hRegisters hProgram (hFlushes.trans hTaken.symm)
        (hStopped.trans hHalted.symm) hFront hExecuteFree hNoDecode hNoFetch rfl
  | @redirect target hBehind hOpen hHalted hTaken =>
      cases hDecode with
      | flushed hControl =>
          have hRunning : m₂.pipeline.fetchStopped = false := hStopped.trans hOpen
          refine ⟨hBack.of_eq rfl rfl rfl rfl rfl, rfl, hProgram, ?_, ?_, ?_⟩
          · change m₂.pipeline.flushes + 1 = _
            rw [hFlushes]
            exact hTaken.symm
          · exact hRunning.trans hHalted.symm
          · change Front m₂.pipeline.program m₂.pipeline.fetchStopped
              ((((a.past p.slots.writeback).past m₂.next.writeback).past m₂.next.memory).behind
                m₂.next.execute) m₂.next.decode (some (fetchSlot _ target))
            rw [hBehind, hNoDecode, hRunning]
            refine ⟨by simp, ?_, rfl, fun _ => rfl⟩
            intro t hSlot
            obtain rfl := Option.some.inj hSlot
            exact ⟨rfl, rfl, rfl⟩
  | stop hHalted hTaken =>
      cases hDecode with
      | flushed hControl =>
          refine ⟨hBack.of_eq rfl rfl rfl rfl rfl, rfl, hProgram, hFlushes.trans hTaken.symm,
            hHalted.symm, ?_⟩
          change Front m₂.pipeline.program true
            ((((a.past p.slots.writeback).past m₂.next.writeback).past m₂.next.memory).behind
              m₂.next.execute) m₂.next.decode m₂.next.fetch
          rw [hNoDecode, hNoFetch]
          exact ⟨by simp, by simp, rfl, fun _ => rfl⟩

end Round

end AccelPipe

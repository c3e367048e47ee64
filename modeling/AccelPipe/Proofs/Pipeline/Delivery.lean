import AccelPipe.Proofs.Pipeline.Standing

/-! An instruction that starts in Execute. Its operands have come from the register file, from Memory or
from Writeback, over as many ticks as it has waited; when it starts, they are those of the machine
that comes to it, and an accelerator is handed the words that this machine has in its memory. -/
namespace AccelPipe

namespace Pipeline

/-- A start in Execute: the pipeline as the stage finds it, and what the stage makes of it. -/
structure Start where
  seen : Pipeline
  step : StageStep

namespace Start

variable (start : Start) (acc : Accelerator) (ins : Instruction)

/-- The addresses whose words a unit asks for. -/
def addrs : List Int := start.seen.units.reads acc ins start.step.slot.operands

/-- The words that the unit is handed. They are read once the ports of their banks are taken. -/
def words : List Int := start.step.pipeline.memory.readBlock (start.addrs acc ins)

end Start

/-- The instruction that starts in Execute in the next tick, if there is one. -/
def starting? (p : Pipeline) : Option Start := do
  let s ← p.slots.execute
  if p.status.finished || s.started then none
  let (m, _) ← (makeMemory { pipeline := { p with status := .running } } p.slots.memory).toOption
  let step ← (m.pipeline.executeStage s p.slots.memory p.slots.writeback).toOption
  if step.slot.started then some ⟨m.pipeline, step⟩ else none

/-- A slot in Execute either moves on to Memory or stays. -/
theorem makeExecute_next {m m' : Making} {cur : Slots} {memoryFree free : Bool} {control : Control}
    (h : makeExecute m cur memoryFree = .ok (m', free, control)) {s : Slot}
    (hSlot : cur.execute = some s) :
    ∃ step, m.pipeline.executeStage s cur.memory cur.writeback = .ok step ∧
      (step.done = true ∧ memoryFree = true ∧ m'.next.memory = some step.slot.enter ∨
        (step.done && memoryFree) = false ∧ free = false ∧
          m'.next.execute = some { step.slot with stalled := true }) := by
  unfold makeExecute at h
  rw [hSlot] at h
  obtain ⟨step, hStep, h⟩ := bind_ok h
  refine ⟨step, hStep, ?_⟩
  dsimp only at h
  cases hLeaves : (step.done && memoryFree) with
  | true =>
      rw [hLeaves] at h
      cases h
      obtain ⟨hDone, hFree⟩ := Bool.and_eq_true_iff.mp hLeaves
      exact .inl ⟨hDone, hFree, rfl⟩
  | false =>
      rw [hLeaves] at h
      cases h
      exact .inr ⟨rfl, rfl, rfl⟩

/-- Decode leaves the stages behind it alone as long as Execute is occupied. -/
theorem makeDecode_next {m m' : Making} {cur : Slots} {memoryFree executeFree free : Bool}
    {control : Control}
    (h : makeDecode m cur memoryFree executeFree control = .ok (m', free)) :
    m'.next.memory = m.next.memory ∧ (executeFree = false → m'.next.execute = m.next.execute) := by
  unfold makeDecode at h
  split at h
  · cases h
    exact ⟨rfl, fun _ => rfl⟩
  · obtain ⟨_, -, h⟩ := bind_ok h
    dsimp only at h
    split at h
    · rename_i hMoves
      cases h
      refine ⟨rfl, fun hTaken => ?_⟩
      rw [hTaken] at hMoves
      cases hMoves
    · cases h
      exact ⟨rfl, fun _ => rfl⟩
  · cases h
    exact ⟨rfl, fun _ => rfl⟩

/-- What the stages of a tick, up to the commit, make of the slot in Execute. -/
theorem make_execute {p : Pipeline} {m : Making} {commit : Option Commit}
    (hMake : p.make = .ok (m, commit)) {s : Slot} (hSlot : p.slots.execute = some s) :
    ∃ m₁ free step,
      makeMemory { pipeline := { p with status := .running } } p.slots.memory = .ok (m₁, free) ∧
      m₁.pipeline.executeStage s p.slots.memory p.slots.writeback = .ok step ∧
      (step.done = true ∧ free = true ∧ m.next.memory = some step.slot.enter ∨
        (step.done && free) = false ∧
          m.next.execute = some { step.slot with stalled := true }) := by
  unfold make at hMake
  dsimp only at hMake
  split at hMake
  · cases hMake
  · obtain ⟨_, -, hMake⟩ := bind_ok hMake
    obtain ⟨⟨m₁, free⟩, hMemory, hMake⟩ := bind_ok hMake
    obtain ⟨⟨m₂, executeFree, control⟩, hExecute, hMake⟩ := bind_ok hMake
    obtain ⟨⟨m₃, decodeFree⟩, hDecode, hMake⟩ := bind_ok hMake
    dsimp only at hMake
    rw [makeFetch_eq] at hMake
    cases hMake
    obtain ⟨step, hStep, hNext⟩ := makeExecute_next hExecute hSlot
    obtain ⟨hFromExecute, hFromMemory, -⟩ := madeFetch_next m₃ p.slots.fetch decodeFree control
    obtain ⟨hSameMemory, hSameExecute⟩ := makeDecode_next hDecode
    refine ⟨m₁, free, step, hMemory, hStep, ?_⟩
    rw [hFromExecute, hFromMemory, hSameMemory]
    rcases hNext with ⟨hDone, hFree, hMoves⟩ | ⟨hStays, hTaken, hHere⟩
    · exact .inl ⟨hDone, hFree, hMoves⟩
    · exact .inr ⟨hStays, (hSameExecute hTaken).trans hHere⟩

/-- The slot in Execute starts in a tick exactly if it has started after it. -/
theorem starting?_eq {p : Pipeline} (hRun : p.status.finished = false) {s : Slot}
    (hSlot : p.slots.execute = some s) (hFresh : s.started = false) {m : Making} {free : Bool}
    (hMemory : makeMemory { pipeline := { p with status := .running } } p.slots.memory =
      .ok (m, free)) {step : StageStep}
    (hStep : m.pipeline.executeStage s p.slots.memory p.slots.writeback = .ok step) :
    p.starting? = if step.slot.started then some ⟨m.pipeline, step⟩ else none := by
  unfold starting?
  simp only [hSlot, hRun, hFresh, hMemory, hStep, Except.toOption, Option.bind_eq_bind,
    Option.bind_some, Bool.or_self, Bool.false_eq_true, if_false]

/-- A start is that of a slot in Execute that has not started before. -/
theorem of_starting? {p : Pipeline} {start : Start} (h : p.starting? = some start) :
    p.status.finished = false ∧ ∃ s, p.slots.execute = some s ∧ s.started = false := by
  unfold starting? at h
  obtain ⟨s, hSlot, h⟩ := Option.bind_eq_some_iff.mp h
  split at h
  · cases h
  · rename_i hOpen
    rw [Bool.or_eq_true, not_or, Bool.not_eq_true, Bool.not_eq_true] at hOpen
    exact ⟨hOpen.1, s, hSlot, hOpen.2⟩

end Pipeline

open Pipeline

/-- The instruction that a machine comes to next starts with what the machine has. -/
structure Pipeline.Start.Delivered (start : Start) (b : Machine) : Prop where
  pc : start.step.slot.pc = b.pc
  ins : start.step.slot.ins = some b.instruction
  operands : ∀ o, start.step.slot.operands.get? o =
    (b.instruction.sources.lookup o).map b.registers.read
  /-- A unit asks for the words that it would ask for if all before it were done. -/
  addrs : ∀ acc : Accelerator, b.instruction.kind = acc.kind →
    start.addrs acc b.instruction = b.units.reads acc b.instruction b.operands
  words : ∀ acc : Accelerator, b.instruction.kind = acc.kind →
    start.words acc b.instruction = (start.addrs acc b.instruction).map b.memory
  issued : ∀ acc : Accelerator, b.instruction.kind = acc.kind → ∃ r,
    start.seen.units.execute acc b.instruction start.step.slot.operands
        (start.words acc b.instruction) = (.ok r, start.step.pipeline.units) ∧
      start.step.slot.result = some r.value ∧ start.step.slot.saturated = r.saturated

/-- A store that is still in Memory does not matter to an operation that reads nothing. -/
theorem Machine.reads_pending (a : Machine) (mem : Option Slot) {u : Units} (hFit : u.Fit)
    {acc : Accelerator} {ins : Instruction} {ops : Operands} (hReads : u.reads acc ins ops = []) :
    (a.pending mem u).reads acc ins ops = [] := by
  cases mem with
  | none => exact hReads
  | some s =>
      rw [pending_some]
      unfold snooped
      cases a.store with
      | none => exact hReads
      | some st => exact Units.reads_snoop hFit hReads _

theorem Back.delivered {a : Machine} {p q : Pipeline} {wb mem wb' mem' : Option Slot} {s : Slot}
    (h : Back a p wb mem (some s)) (hShift : Shifted a p q wb mem wb' mem')
    (hFresh : s.started = false) {step : StageStep}
    {f : Hazard.Forwarding}
    (hForward : Hazard.forward ((a.past wb).past mem).instruction ⟨s.operands, s.sources⟩ mem wb = f)
    (hMove : ExecuteMove q s ((a.past wb).past mem).instruction mem f step)
    (hStarted : step.slot.started = true) :
    Start.Delivered ⟨q, step⟩ ((a.past wb).past mem) := by
  have hWaiting := h.waiting s rfl hFresh
  have hNot : s.started = true → False := by
    intro hBefore
    rw [hFresh] at hBefore
    cases hBefore
  cases hMove with
  | advances hBefore => exact (hNot hBefore).elim
  | unready => exact (hNot hStarted).elim
  | ordered => exact (hNot hStarted).elim
  | blocked => exact (hNot hStarted).elim
  | @starts w units m _ hReady hBurst hPerform =>
      have hOperands := h.rear.forward_operands hWaiting hForward hReady
      rw [hOperands] at hBurst hPerform
      have hWords := readBlock_of_sameWords hBurst.words
      refine ⟨hWaiting.pc, hWaiting.ins, fun o => ?_, fun acc hKind => ?_, fun acc hKind => ?_,
        fun acc hKind => ?_⟩
      · change f.operands.get? o = _
        rw [hOperands]
        exact Registers.get?_operands _ _ o
      · change q.units.reads acc _ f.operands = _
        rw [hOperands]
        cases hBurst with
        | idle hReads =>
            have hNone := Machine.reads_pending ((a.past wb).past wb') mem' (h.shifted_fit hShift)
              (hReads acc hKind)
            rw [hShift.units, h.units_of_fresh hFresh] at hNone
            rw [hReads acc hKind, hNone]
        | taken _ _ hFree =>
            rw [(hShift.clear hFree).2.1, h.units_of_fresh hFresh]
      · change m.readBlock _ = _
        rw [hWords]
        change (q.units.reads acc _ f.operands).map _ = (q.units.reads acc _ f.operands).map _
        rw [hOperands]
        cases hBurst with
        | idle hReads => rw [hReads acc hKind, List.map_nil, List.map_nil]
        | taken _ _ hFree => rw [(hShift.clear hFree).1]
      · rw [perform_unit hKind] at hPerform
        obtain ⟨r, hResult, hDone⟩ := bind_ok hPerform
        obtain ⟨rfl, rfl⟩ := Prod.mk.inj (Except.ok.inj hDone)
        refine ⟨r, ?_, rfl, rfl⟩
        change q.units.execute acc _ f.operands (m.readBlock (q.units.reads acc _ f.operands)) = _
        rw [hWords, hOperands]
        exact Prod.ext hResult rfl

namespace Follows

variable {a : Machine} {p : Pipeline}

/-- What Memory and Execute do in a tick of a pipeline that stands for a machine. -/
theorem execute_move (h : Follows a p p.registers p.slots) {s : Slot}
    (hSlot : p.slots.execute = some s) {m : Making} {free : Bool}
    (hMemory : makeMemory { pipeline := { p with status := .running } } p.slots.memory =
      .ok (m, free)) {step : StageStep}
    (hStep : m.pipeline.executeStage s p.slots.memory p.slots.writeback = .ok step) :
    Shifted a { p with status := .running } m.pipeline p.slots.writeback p.slots.memory
        m.next.writeback m.next.memory ∧
      ExecuteMove m.pipeline s ((a.past p.slots.writeback).past p.slots.memory).instruction
        p.slots.memory (Hazard.forward ((a.past p.slots.writeback).past p.slots.memory).instruction
          ⟨s.operands, s.sources⟩ p.slots.memory p.slots.writeback) step := by
  have hBack := h.back.running
  obtain ⟨m', free', hMemory', hRound⟩ :=
    makeMemory_round { p with status := .running } h.memory_ready
  cases hMemory'.symm.trans hMemory
  have hShift := hRound.shifted hBack
  obtain ⟨hIns, hBlank, hOps⟩ := h.execute_ready s hSlot
  obtain ⟨step', hStep', hMove⟩ := executeStage_move hIns (hBack.shifted_fit hShift) hBlank hOps
    fun t hMem => ⟨_, (h.back.rear.executed t hMem).ins⟩
  cases hStep'.symm.trans hStep
  exact ⟨hShift, hMove⟩

/-- In a tick, the instruction that waits in Execute either starts, with all that the machine has,
or waits on. -/
theorem starts_or_waits (h : Follows a p p.registers p.slots) (hRun : p.status.finished = false)
    {s : Slot} (hSlot : p.slots.execute = some s) (hFresh : s.started = false) :
    (∃ start, p.starting? = some start ∧
      start.Delivered ((a.past p.slots.writeback).past p.slots.memory) ∧
      (p.tick.2.slots.execute = some { start.step.slot with stalled := true } ∨
        p.tick.2.slots.memory = some start.step.slot.enter)) ∨
    (p.starting? = none ∧ ∃ t, p.tick.2.slots.execute = some t ∧ t.started = false) := by
  obtain ⟨_, _, _, _, _, _, _, _, hRound⟩ := h.round hRun
  have hSlots := hRound.tick_slots h hSlot
  obtain ⟨m, free, step, hMemory, hStep, hNext⟩ := make_execute hRound.make hSlot
  rw [← hSlots] at hNext
  obtain ⟨hShift, hMove⟩ := h.execute_move hSlot hMemory hStep
  rw [starting?_eq hRun hSlot hFresh hMemory hStep]
  cases hStarted : step.slot.started with
  | true =>
      have hBack := h.back.running
      rw [hSlot] at hBack
      refine .inl ⟨_, rfl, hBack.delivered hShift hFresh rfl hMove hStarted, ?_⟩
      rcases hNext with ⟨-, -, hMoves⟩ | ⟨-, hHere⟩
      · exact .inr hMoves
      · exact .inl hHere
  | false =>
      refine .inr ⟨rfl, ?_⟩
      rcases hNext with ⟨hDone, -, -⟩ | ⟨-, hHere⟩
      · rw [hMove.not_done hStarted] at hDone
        cases hDone
      · exact ⟨_, hHere, hStarted⟩

end Follows

end AccelPipe

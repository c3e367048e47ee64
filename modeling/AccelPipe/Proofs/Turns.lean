import AccelPipe.Proofs.Forwarding
import AccelPipe.Proofs.InOrder
import AccelPipe.Proofs.Pipeline.Supply

/-! An instruction starts in its first tick in Execute, unless it is one of an accelerator, and
what it means for those behind it is told once: every taken branch redirects Fetch, every
instruction that ends the run stops it, and nothing else does. -/
namespace AccelPipe

open Pipeline

/-- What an instruction that has been carried out means for those behind it. -/
def Commit.control (c : Commit) : Control :=
  if (ending c.ins.kind).isSome then .stop
  else match c.taken, c.target with
    | true, some target => .redirect target
    | _, _ => .goOn

namespace Pipeline

/-- What Execute tells the stages behind it in the next tick. -/
def turn (p : Pipeline) : Control :=
  if p.status.finished then .goOn
  else match makeMemory { pipeline := { p with status := .running } } p.slots.memory with
    | .error _ => .goOn
    | .ok (m, free) =>
      match makeExecute m p.slots free with
      | .error _ => .goOn
      | .ok (_, _, control) => control

/-- How many instructions have started in Execute since the beginning of the run. The illegal one
that ends it is not counted as retired. -/
def passed (p : Pipeline) : Nat :=
  p.retired + p.slots.begun.length + (p.status == .illegalInstruction).toNat

theorem passed_of_open {p : Pipeline} (hRun : p.status.finished = false) :
    p.passed = p.retired + p.slots.begun.length := by
  have hLegal : (p.status == .illegalInstruction) = false := by
    cases hStatus : p.status <;> first | rfl | (rw [hStatus] at hRun; cases hRun)
  unfold passed
  rw [hLegal]
  rfl

/-- What a tick from `p` to `q` does about what Execute tells. A redirect drops what is in Decode
and in Fetch, counts as a flush, and fetches from its target on; a squash drops them for good. -/
def Heeds (p q : Pipeline) : Control → Prop
  | .goOn => q.flushes = p.flushes ∧ q.fetchStopped = p.fetchStopped
  | .redirect target => q.flushes = p.flushes + 1 ∧ q.fetchStopped = p.fetchStopped ∧
      q.slots.decode = none ∧ q.slots.fetch.map (·.pc) = some (target : Int)
  | .stop => q.flushes = p.flushes ∧ q.fetchStopped = true ∧
      q.slots.decode = none ∧ q.slots.fetch = none

end Pipeline

/-- Memory adds nothing to a jump. -/
theorem Machine.finished_jump (a : Machine) :
    a.finished.taken = a.performed.1.taken ∧ a.finished.target = a.performed.1.target := by
  unfold finished
  split
  · split <;> exact ⟨rfl, rfl⟩
  · exact ⟨rfl, rfl⟩

/-- An instruction tells what its commit will. -/
theorem Machine.controlOf_eq {a : Machine} (hSound : a.Sound) {s t : Slot}
    (hBefore : s.started = false) (hAfter : t.started = true) (hExecuted : t.Executed a) :
    controlOf s t = a.commit.control := by
  have hFits := performed_fits hSound
  have hFinished := a.finished_jump
  have hTaken : t.taken = a.commit.taken :=
    (congrArg Work.taken hExecuted.work).trans hFinished.1.symm
  have hTarget : t.target = a.commit.target :=
    (congrArg Work.target hExecuted.work).trans hFinished.2.symm
  have hBranch : a.commit.taken = true → a.instruction.kind = .branch := by
    intro hIs
    exact (hFits.target (hFinished.1.symm.trans hIs)).1
  unfold controlOf Commit.control
  rw [hBefore, hAfter, hExecuted.ins, hTaken, hTarget, show a.commit.ins = a.instruction from rfl]
  dsimp only [Bool.false_or, Bool.not_true]
  cases hIs : a.commit.taken with
  | true =>
      rw [hBranch hIs]
      cases a.commit.target <;> rfl
  | false => cases a.instruction.kind <;> rfl

/-! How many have started, over one tick. -/

theorem length_toList (slot : Option Slot) : slot.toList.length = slot.isSome.toNat := by
  cases slot <;> rfl

theorem Stages.begun_length (slots : Slots) : slots.begun.length =
    (slots.execute.any (·.started)).toNat + slots.memory.isSome.toNat +
      slots.writeback.isSome.toNat := by
  have hStarted : (slots.execute.toList.filter (·.started)).length =
      (slots.execute.any (·.started)).toNat := by
    cases slots.execute with
    | none => rfl
    | some s => cases hIs : s.started <;> simp [hIs]
  unfold begun
  rw [List.length_append, List.length_append, hStarted, length_toList, length_toList]

/-- The slot of Execute, wherever it goes, counts if it has started. -/
theorem Stages.begun_placed {slots : Slots} (t : Slot) (leaves : Bool)
    (hExecute : slots.execute = none)
    (hLeaves : leaves = true → slots.memory = none ∧ t.started = true) :
    (if leaves then { slots with memory := some t.enter }
      else { slots with execute := some { t with stalled := true } } : Slots).begun.length =
      t.started.toNat + slots.begun.length := by
  cases leaves with
  | true =>
      obtain ⟨hMemory, hStarted⟩ := hLeaves rfl
      simp [begun_length, hExecute, hMemory, hStarted]
  | false =>
      simp [begun_length, hExecute]
      omega

namespace Pipeline

variable {p : Pipeline} {m m' : Making} {ins : Instruction} {cur : Slots}
  {free free₁ free₂ : Bool} {control : Control}

theorem MemoryRound.begun {mem : Option Slot} (h : MemoryRound p ins mem m free) :
    m.next.begun.length = mem.isSome.toNat := by
  cases h with
  | empty => rfl
  | @moves s step hMove => cases step.done <;> rfl

/-- Execute tells nothing unless its instruction starts, which is then one more. -/
theorem ExecuteRound.begun {ex : Option Slot}
    (h : ExecuteRound m ins cur free₁ ex m' free₂ control)
    (hFree : free₁ = m.next.memory.isNone) (hExecute : m.next.execute = none) :
    (m'.next.begun.length = (ex.any (·.started)).toNat + m.next.begun.length ∧
      control = .goOn) ∨
    ∃ s step, ex = some s ∧ s.started = false ∧ step.slot.started = true ∧
      ExecuteMove m.pipeline s ins cur.memory
        (Hazard.forward ins ⟨s.operands, s.sources⟩ cur.memory cur.writeback) step ∧
      m'.next.begun.length = m.next.begun.length + 1 ∧ control = controlOf s step.slot := by
  cases h with
  | empty => exact .inl ⟨(Nat.zero_add _).symm, rfl⟩
  | @moves s step hMove =>
      have hCount := Stages.begun_placed step.slot (step.done && free₁) hExecute (by
        intro hLeaves
        obtain ⟨hDone, hEmpty⟩ := Bool.and_eq_true_iff.mp hLeaves
        rw [hEmpty] at hFree
        refine ⟨Option.isNone_iff_eq_none.mp hFree.symm, ?_⟩
        by_contra hNot
        cases (hMove.not_done (Bool.not_eq_true _ ▸ hNot)).symm.trans hDone)
      cases hBefore : s.started with
      | true =>
          have hStill : step.slot.started = true := by
            by_contra hNot
            cases (hMove.fresh (Bool.not_eq_true _ ▸ hNot)).symm.trans hBefore
          refine .inl ⟨hCount.trans ?_, controlOf_started_before hBefore⟩
          rw [hStill, Option.any_some, hBefore]
      | false =>
          cases hAfter : step.slot.started with
          | true =>
              refine .inr ⟨s, step, rfl, hBefore, hAfter, hMove, hCount.trans ?_, rfl⟩
              rw [hAfter, Nat.add_comm]
              rfl
          | false =>
              refine .inl ⟨hCount.trans ?_, controlOf_fresh hAfter⟩
              rw [hAfter, Option.any_some, hBefore]

/-- What comes from Decode has not started. -/
theorem DecodeRound.begun {id : Option Slot} (h : DecodeRound m cur free₁ free₂ control id m' free)
    (hFree : free₂ = m.next.execute.isNone) :
    m'.next.begun.length = m.next.begun.length := by
  cases h with
  | empty => rfl
  | @moves s hExecuteFree hReason =>
      rw [hExecuteFree] at hFree
      have hNone := Option.isNone_iff_eq_none.mp hFree.symm
      simp [Stages.begun_length, hNone, Slot.enter]
  | waits => rfl
  | flushed => rfl

end Pipeline

/-- Over a tick, at most one instruction starts, and it alone tells those behind it something. -/
theorem Round.begun {a : Machine} {p : Pipeline} {m₁ m₂ m₃ : Making} {free₁ free₂ free₃ : Bool}
    {control : Control} {commit : Option Commit}
    (h : Round p a m₁ m₂ m₃ free₁ free₂ free₃ control commit)
    (hFollows : Follows a p p.registers p.slots) :
    let next := (madeFetch m₃ p.slots.fetch free₃ control).next
    (p.slots.writeback.toList.length + next.begun.length = p.slots.begun.length ∧
      control = .goOn) ∨
    (p.slots.writeback.toList.length + next.begun.length = p.slots.begun.length + 1 ∧
      p.slots.begun.length = p.slots.older.length ∧
      control = ((a.past p.slots.writeback).past p.slots.memory).commit.control) := by
  intro next
  obtain ⟨hMemoryFree, hNoExecute, -⟩ := h.memory.free
  have hExecuteFree := (h.settled hFollows).free
  obtain ⟨hExecute, hMemory, hWriteback⟩ := madeFetch_next m₃ p.slots.fetch free₃ control
  have hNext : next.begun.length = m₂.next.begun.length := by
    rw [← h.decode.begun hExecuteFree, Stages.begun_length, Stages.begun_length, hExecute, hMemory,
      hWriteback]
  rw [hNext, Stages.begun_length p.slots, length_toList]
  rcases h.execute.begun hMemoryFree hNoExecute with
    ⟨hCount, hControl⟩ | ⟨s, step, hSlot, hFresh, hStarted, hMove, hCount, hControl⟩
  · refine .inl ⟨?_, hControl⟩
    rw [hCount, h.memory.begun]
    omega
  · have hBack := hFollows.back.running
    rw [hSlot] at hBack
    have hExecuted :=
      hBack.executed_of_started (h.memory.shifted hFollows.back.running) hMove hStarted
    have hSound := (hBack.rear.sound.past p.slots.writeback).past p.slots.memory
    refine .inr ⟨?_, ?_, hControl.trans (Machine.controlOf_eq hSound hFresh hStarted hExecuted)⟩
    · rw [hCount, h.memory.begun, hSlot, Option.any_some, hFresh, Bool.toNat_false]
      omega
    · unfold Stages.older
      rw [hSlot, Option.any_some, hFresh, List.length_append, length_toList, length_toList,
        Bool.toNat_false]
      omega

/-- Behind an instruction that ends the run, nothing has started. -/
theorem Follows.begun_of_halted {a : Machine} {q : Pipeline} {registers : Registers} {slots : Slots}
    (h : Follows a q registers slots) (hHalted : a.halted = true) : slots.begun.length = 0 := by
  obtain ⟨hWriteback, hMemory, hExecute⟩ := h.empty_of_halted hHalted
  rw [Stages.begun_length, hWriteback, hMemory, hExecute]
  rfl

/-- However a tick ends, the instructions that have started are those that have been retired and
those that its stages have left under way. -/
theorem Round.passed {a : Machine} {p : Pipeline} {m₁ m₂ m₃ : Making} {free₁ free₂ free₃ : Bool}
    {control : Control} {commit : Option Commit}
    (h : Round p a m₁ m₂ m₃ free₁ free₂ free₃ control commit)
    (hFollows : Follows a p p.registers p.slots) :
    p.tick.2.passed = p.retired + (p.slots.writeback.toList.length +
      (madeFetch m₃ p.slots.fetch free₃ control).next.begun.length) := by
  have hNext := h.follows hFollows
  have hStaged := h.staged hFollows
  have hCase := h.tick hFollows
  generalize madeFetch m₃ p.slots.fetch free₃ control = m at hNext hStaged hCase
  have hLegal : (RunStatus.running == .illegalInstruction) = false := rfl
  have hEnds : p.slots.writeback.isSome = true → ending a.instruction.kind ≠ none →
      m.next.begun.length = 0 := by
    intro hWb hEnd
    obtain ⟨s, hSlot⟩ := Option.isSome_iff_exists.mp hWb
    rw [hSlot, Machine.past_some] at hNext
    refine hNext.begun_of_halted ?_
    rw [Machine.next_halted]
    exact Option.isSome_iff_ne_none.mpr hEnd
  generalize p.tick = t at hCase
  unfold Pipeline.passed
  cases hCase with
  | idle hWb hRest =>
      dsimp only
      rw [hRest, hWb]
      dsimp only
      rw [hStaged.retired, hStaged.running]
      simp [hLegal]
  | retires hWb hCommit hCycle hKind hCompared hRest =>
      dsimp only
      rw [hRest, length_toList, hWb]
      dsimp only
      rcases after_cases hKind with
        ⟨-, hNextSlots, hNextStatus⟩ | ⟨-, hEnd, hNextSlots, hNextStatus⟩
      · rw [hNextSlots, hNextStatus]
        simp [hLegal]
        omega
      · rw [hEnds hWb (by rw [hEnd]; nofun), hNextSlots, hNextStatus]
        rfl
  | fails hWb hCommit hKind hCompared hRest =>
      dsimp only
      rw [hRest, length_toList, hWb]
      dsimp only
      rw [hStaged.running]
      simp [hLegal]
      omega
  | illegal hWb hKind hRest =>
      dsimp only
      rw [hRest, length_toList, hWb, hEnds hWb (by rw [hKind]; nofun)]
      dsimp only
      rw [hStaged.retired]
      rfl

/-- The commit changes nothing about what has been fetched. -/
theorem Tick.counters {p : Pipeline} {a : Machine} {m : Making}
    {t : Except Failure Unit × Pipeline} (h : Tick p a m t) :
    t.2.flushes = m.pipeline.flushes ∧ t.2.fetchStopped = m.pipeline.fetchStopped ∧
      t.2.fetched = m.pipeline.fetched := by
  cases h with
  | idle hWb hRest => exact ⟨by rw [hRest], by rw [hRest], by rw [hRest]⟩
  | retires hWb hCommit hCycle hKind hCompared hRest =>
      exact ⟨by rw [hRest], by rw [hRest], by rw [hRest]⟩
  | fails hWb hCommit hKind hCompared hRest =>
      exact ⟨by rw [hRest], by rw [hRest], by rw [hRest]⟩
  | illegal hWb hKind hRest => exact ⟨by rw [hRest], by rw [hRest], by rw [hRest]⟩

/-- What Execute tells is what its tick does. -/
theorem Round.heeds {a : Machine} {p : Pipeline} {m₁ m₂ m₃ : Making} {free₁ free₂ free₃ : Bool}
    {control : Control} {commit : Option Commit}
    (h : Round p a m₁ m₂ m₃ free₁ free₂ free₃ control commit)
    (hFollows : Follows a p p.registers p.slots) : p.Heeds p.tick.2 control := by
  obtain ⟨-, -, hFlushes, hStopped⟩ := h.counters hFollows
  obtain ⟨-, -, hExecuteFree, hNoDecode, hNoFetch, -⟩ := h.settled hFollows
  obtain ⟨hFlushed, hStops, -⟩ := (h.tick hFollows).counters
  obtain ⟨-, -, hStop, hFlush⟩ := madeFetch_pipeline m₃ p.slots.fetch free₃ control
  rw [hFlush, hFlushes] at hFlushed
  rw [hStop, hStopped] at hStops
  -- unless the instructions behind it go on, an instruction has been in Execute
  have hSlots : control ≠ .goOn →
      p.tick.2.slots = (madeFetch m₃ p.slots.fetch free₃ control).next ∧ m₃.next = m₂.next := by
    intro hControl
    obtain ⟨s, hSlot, -⟩ := h.starts.1 hControl
    exact ⟨h.tick_slots hFollows hSlot,
      (h.decode.marks hExecuteFree hNoDecode hNoFetch).2 hControl⟩
  cases control with
  | goOn => exact ⟨hFlushed, hStops⟩
  | redirect target =>
      obtain ⟨hTick, hSame⟩ := hSlots nofun
      refine ⟨hFlushed, hStops, ?_, ?_⟩
      · rw [hTick]
        exact (congrArg (·.decode) hSame).trans hNoDecode
      · rw [hTick]
        rfl
  | stop =>
      obtain ⟨hTick, hSame⟩ := hSlots nofun
      refine ⟨hFlushed, hStops, ?_, ?_⟩
      · rw [hTick]
        exact (congrArg (·.decode) hSame).trans hNoDecode
      · rw [hTick]
        exact (congrArg (·.fetch) hSame).trans hNoFetch

/-- A state in which Execute waits for no load. -/
structure Pipeline.Brisk (p : Pipeline) : Prop where
  /-- Whoever has yet to start in Execute finds all values that are to be handed on to it. -/
  ready : ∀ s, p.slots.execute = some s → s.started = false → ∃ ins, s.ins = some ins ∧
    (Hazard.forward ins ⟨s.operands, s.sources⟩ p.slots.memory p.slots.writeback).ready = true
  /-- Execute never stalls for a load, whatever memory and units are like by then. -/
  unstalled : ∀ s, p.slots.execute = some s → ∀ (q : Pipeline) (step : StageStep),
    q.executeStage s p.slots.memory p.slots.writeback = .ok step → .loadUse ∉ step.stalls
  /-- All but the operations of the accelerators start in their first tick. -/
  starts : p.status.finished = false → ∀ s ins, p.slots.execute = some s → s.started = false →
    s.ins = some ins → ins.kind ∈ [.alu, .branch, .load, .store, .system, .illegal] →
      ∃ start, p.starting? = some start ∧
        (p.tick.2.slots.execute = some { start.step.slot with stalled := true } ∨
          p.tick.2.slots.memory = some start.step.slot.enter)
  /-- What Execute tells, the tick does. -/
  heeds : p.status.finished = false → p.Heeds p.tick.2 p.turn

namespace Follows

variable {a : Machine} {p : Pipeline}

/-- The control of a tick is what Execute tells in it. -/
theorem round_turn (h : Follows a p p.registers p.slots) (hRun : p.status.finished = false) :
    ∃ m₁ m₂ m₃ free₁ free₂ free₃ commit,
      Round p a m₁ m₂ m₃ free₁ free₂ free₃ p.turn commit := by
  obtain ⟨m₁, m₂, m₃, free₁, free₂, free₃, control, commit, hRound, hMemory, hExecute⟩ :=
    h.round_made hRun
  have hTurn : p.turn = control := by
    unfold turn
    rw [if_neg (by rw [hRun]; nofun), hMemory]
    dsimp only
    rw [hExecute]
  rw [hTurn]
  exact ⟨m₁, m₂, m₃, free₁, free₂, free₃, commit, hRound⟩

/-- With all values at hand, only an operation of an accelerator may have to wait. -/
theorem starts (h : Follows a p p.registers p.slots) (hSupplied : p.slots.Supplied)
    (hRun : p.status.finished = false) {s : Slot} (hSlot : p.slots.execute = some s)
    (hFresh : s.started = false) {ins : Instruction} (hIns : s.ins = some ins)
    (hPlain : ∀ acc : Accelerator, ins.kind ≠ acc.kind) :
    ∃ start, p.starting? = some start ∧
      (p.tick.2.slots.execute = some { start.step.slot with stalled := true } ∨
        p.tick.2.slots.memory = some start.step.slot.enter) := by
  rcases h.starts_or_waits hRun hSlot hFresh with ⟨start, hStart, -, hNext⟩ | ⟨hNone, -⟩
  · exact ⟨start, hStart, hNext⟩
  · have hReady := h.ready hSupplied hSlot hFresh
    obtain rfl := Option.some.inj ((h.execute_ready s hSlot).1.symm.trans hIns)
    obtain ⟨m₁, m₂, m₃, free₁, free₂, free₃, control, commit, hRound, hMemory, hExecute⟩ :=
      h.round_made hRun
    obtain ⟨step, hStep, -⟩ := makeExecute_next hExecute hSlot
    obtain ⟨-, hMove⟩ := h.execute_move hSlot hMemory hStep
    rw [starting?_eq hRun hSlot hFresh hMemory hStep] at hNone
    have hWaits : step.slot.started = false := by
      by_contra hNot
      rw [if_pos (Bool.not_eq_false _ ▸ hNot)] at hNone
      cases hNone
    cases hMove with
    | advances hStarted => cases hStarted.symm.trans hFresh
    | unready _ hNot => cases hNot.symm.trans hReady
    | ordered _ _ hKind => exact absurd hKind (hPlain _)
    | blocked _ _ hKind => exact absurd hKind (hPlain _)
    | starts => cases hWaits

theorem brisk (h : Follows a p p.registers p.slots) (hSupplied : p.slots.Supplied) : p.Brisk := by
  refine ⟨fun s hSlot hFresh => ⟨_, (h.execute_ready s hSlot).1, h.ready hSupplied hSlot hFresh⟩,
    fun s hSlot q step hStep => executeStage_stalls (h.execute_ready s hSlot).1
      (h.ready hSupplied hSlot) hStep, ?_, fun hRun => ?_⟩
  · intro hRun s ins hSlot hFresh hIns hKind
    refine h.starts hSupplied hRun hSlot hFresh hIns fun acc hUnit => ?_
    rw [hUnit] at hKind
    cases acc <;> simp [Accelerator.kind] at hKind
  · obtain ⟨_, _, _, _, _, _, _, hRound⟩ := h.round_turn hRun
    exact hRound.heeds h

end Follows

namespace Standing

variable {a : Machine} {p : Pipeline}

theorem brisk (h : Standing a p) (hSupplied : p.slots.Supplied) : p.Brisk := by
  cases h with
  | underWay hRuns hFollows => exact hFollows.brisk hSupplied
  | ended hStatus hSlots =>
      have hNone : p.slots.execute = none := by
        rw [hSlots]
        rfl
      refine ⟨fun s hSlot => ?_, fun s hSlot => ?_, fun hRun => ?_, fun hRun => ?_⟩
      · cases hNone.symm.trans hSlot
      · cases hNone.symm.trans hSlot
      · cases hStatus.symm.trans hRun
      · cases hStatus.symm.trans hRun

/-- In a tick, one more instruction starts and tells what its commit will, or none does and
nothing is told. -/
theorem passes (h : Standing a p) (hRun : p.status.finished = false) :
    (p.tick.2.passed = p.passed ∧ p.turn = .goOn) ∨
      (p.tick.2.passed = p.passed + 1 ∧ p.turn = (Machine.after p.passed a).commit.control) := by
  have hFollows := (h.live hRun).2
  obtain ⟨m₁, m₂, m₃, free₁, free₂, free₃, commit, hRound⟩ := hFollows.round_turn hRun
  rw [hRound.passed hFollows, passed_of_open hRun]
  rcases hRound.begun hFollows with ⟨hCount, hGoOn⟩ | ⟨hCount, hOlder, hTells⟩
  · exact .inl ⟨congrArg (p.retired + ·) hCount, hGoOn⟩
  · refine .inr ⟨congrArg (p.retired + ·) hCount, ?_⟩
    rw [hOlder]
    exact hTells.trans (congrArg (fun b => b.commit.control) (Follows.after_before a p))

end Standing

namespace Simulator

/-- What Execute tells in the next tick of a simulator, unless its time is up. -/
def turn (s : Simulator) : Control :=
  if s.config.maxCycles ≤ s.pipeline.cycle then .goOn else s.pipeline.turn

/-- The redirects and squashes of so many ticks. -/
def turns (s : Simulator) (k : Nat) : List Control :=
  ((List.range k).map fun j => (s.ticks j).turn).filter (· ≠ .goOn)

end Simulator

/-- The redirects and squashes that the first instructions of a machine call for. -/
def Machine.turns (a : Machine) (n : Nat) : List Control :=
  ((a.history n).map Commit.control).filter (· ≠ .goOn)

theorem Machine.turns_succ (a : Machine) (n : Nat) :
    a.turns (n + 1) = a.turns n ++ [(after n a).commit.control].filter (· ≠ .goOn) := by
  unfold turns
  rw [history_succ, List.map_append, List.filter_append]
  rfl

namespace Simulator

theorem turns_succ (s : Simulator) (k : Nat) :
    s.turns (k + 1) = s.turns k ++ [(s.ticks k).turn].filter (· ≠ .goOn) := by
  unfold turns
  rw [List.range_succ, List.map_append, List.filter_append]
  rfl

/-- What a clock cycle adds to the instructions that have started, and what is told in it. -/
theorem tick_passes {a : Machine} {s : Simulator} (h : Standing a s.pipeline) :
    (s.tick.2.pipeline.passed = s.pipeline.passed ∧ s.turn = .goOn) ∨
      (s.tick.2.pipeline.passed = s.pipeline.passed + 1 ∧
        s.turn = (Machine.after s.pipeline.passed a).commit.control) := by
  change ((advance s.config.maxCycles s.pipeline).2.passed = _ ∧ _) ∨
    ((advance s.config.maxCycles s.pipeline).2.passed = _ ∧ _)
  rcases advance_cases s.config.maxCycles s.pipeline with
    ⟨hEnd, hSame⟩ | ⟨hRun, hBudget, hTimeout⟩ | ⟨hRun, hBudget, hNext⟩
  · refine .inl ⟨by rw [hSame], ?_⟩
    unfold turn Pipeline.turn
    rw [if_pos hEnd]
    split <;> rfl
  · refine .inl ⟨?_, ?_⟩
    · rw [hTimeout, passed_of_open hRun]
      rfl
    · unfold turn
      exact if_pos (by omega)
  · have hTurn : s.turn = s.pipeline.turn := by
      unfold turn
      exact if_neg (by omega)
    have hPassed : (advance s.config.maxCycles s.pipeline).2.passed = s.pipeline.tick.2.passed := by
      rcases hNext with hTick | ⟨-, mismatches, hTick⟩
      · rw [hTick]
      · rw [hTick]
        rfl
    rw [hPassed, hTurn]
    exact h.passes hRun

variable {c : Config} {program : Image} {data : List (Int × List Int)}

/-- In every state that ticks lead to, Execute waits for no load; and over these ticks, each taken
branch has redirected Fetch to its target once, each instruction that ends the run has stopped it
once, in their order, and no other instruction has done so. -/
theorem ticks_brisk (hValid : c.Valid) (k : Nat) :
    let s := (loaded c program data).ticks k
    s.pipeline.Brisk ∧
      (loaded c program data).turns k = (c.machine program data).turns s.pipeline.passed := by
  refine ⟨(ticks_standing hValid k).brisk (ticks_kept hValid Stages.kept_supplied ?_ k), ?_⟩
  · intro fetched s t ins loaded hSlot
    cases hSlot
  · induction k with
    | zero =>
        unfold ticks
        rw [loaded_pipeline, build_eq]
        rfl
    | succ k ih =>
        change _ = Machine.turns _ ((loaded c program data).ticks k).tick.2.pipeline.passed
        rw [turns_succ, ih]
        rcases tick_passes (ticks_standing hValid k) with ⟨hSame, hTurn⟩ | ⟨hMore, hTurn⟩
        · rw [hSame, hTurn]
          simp
        · rw [hMore, hTurn, Machine.turns_succ]

/-- A load that takes three ticks, a branch on the loaded word, which is taken over an illegal
word, and the end of the run. The branch comes to Execute when the load is in Writeback, and
starts at once. -/
theorem ticks_brisk_of_taken_branch :
    let s := loaded .slow #[0x00500093, 0x00102023, 0x00002103, 0x00110463, 0, 0x73] []
    ((s.ticks 10).pipeline.slots.execute.map (·.pc),
        (s.ticks 10).pipeline.slots.writeback.map (·.pc), (s.ticks 10).turn) =
          (some 12, some 8, .redirect 20) ∧
      s.turns 20 = [.redirect 20, .stop] ∧
      (s.ticks 20).pipeline.passed = 5 ∧
      (s.ticks 20).pipeline.Brisk ∧
      s.turns 20 = (Config.slow.machine #[0x00500093, 0x00102023, 0x00002103, 0x00110463, 0, 0x73]
        []).turns (s.ticks 20).pipeline.passed :=
  ⟨by decide +kernel, by decide +kernel, by decide +kernel, ticks_brisk Config.valid_slow 20⟩

end Simulator

end AccelPipe

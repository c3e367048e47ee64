import AccelPipe.Proofs.Pipeline.Commits

/-! A run, tick after tick: it commits the instructions of the sequential machine one by one, and
ends where the machine does. -/
namespace AccelPipe

open Pipeline

/-- A pipeline whose run has ended stands for a machine as it is, with nothing under way. -/
structure Ended (a : Machine) (p : Pipeline) : Prop where
  sound : a.Sound
  soundMemory : p.memory.Sound
  size : p.memory.size = a.size
  registers : p.registers = a.registers
  words : p.memory.peek = a.memory
  units : p.units = a.units
  flushes : p.flushes = a.flushes
  slots : p.slots = .bubbles

namespace Follows

variable {a : Machine} {q q' : Pipeline} {registers : Registers} {slots : Slots}

/-- What a pipeline follows only depends on memory, units, program, flushes and on whether Fetch has
stopped. -/
theorem of_eq (h : Follows a q registers slots) (hMemory : q'.memory = q.memory)
    (hUnits : q'.units = q.units) (hProgram : q'.program = q.program)
    (hFlushes : q'.flushes = q.flushes) (hStopped : q'.fetchStopped = q.fetchStopped) :
    Follows a q' registers slots := by
  refine ⟨h.back.of_eq hMemory hUnits rfl rfl rfl, h.registers, ?_, ?_, ?_, ?_⟩
  · rw [hProgram]
    exact h.program
  · rw [hFlushes]
    exact h.flushes
  · rw [hStopped]
    exact h.stopped
  · rw [hProgram, hStopped]
    exact h.front

/-- Nothing is under way behind an instruction that ends the run. -/
theorem empty_of_halted (h : Follows a q registers slots) (hHalted : a.halted = true) :
    slots.writeback = none ∧ slots.memory = none ∧ slots.execute = none := by
  have hNot : ∀ {s : Slot}, s.Holds a → False := by
    intro s hHolds
    rw [hHolds.running] at hHalted
    cases hHalted
  have hWb : slots.writeback = none := by
    cases hSlot : slots.writeback with
    | none => rfl
    | some s => exact (hNot (h.back.rear.writeback s hSlot).toHolds).elim
  have hMem : slots.memory = none := by
    cases hSlot : slots.memory with
    | none => rfl
    | some s =>
        have hExecuted := h.back.rear.executed s hSlot
        rw [hWb] at hExecuted
        exact (hNot hExecuted.toHolds).elim
  refine ⟨hWb, hMem, ?_⟩
  cases hSlot : slots.execute with
  | none => rfl
  | some s =>
      have hStarted := h.back.started s hSlot
      have hWaiting := h.back.waiting s hSlot
      rw [hWb, hMem] at hStarted hWaiting
      cases hIs : s.started with
      | true => exact (hNot (hStarted hIs).toHolds).elim
      | false => exact (hNot (hWaiting hIs).toHolds).elim

/-- Nor does it fetch any more. -/
theorem stopped_of_halted (h : Follows a q registers slots) (hHalted : a.halted = true) :
    q.fetchStopped = true ∧ slots.decode = none := by
  obtain ⟨hWb, hMem, hEx⟩ := h.empty_of_halted hHalted
  have hStopped := h.stopped
  rw [hWb, hMem, hEx, Machine.past_none, Machine.past_none, Machine.ahead_none, hHalted]
    at hStopped
  exact ⟨hStopped, h.front.empty hStopped⟩

/-- Behind the instruction that has ended the run, the pipeline has the state of the machine. -/
theorem ended (h : Follows a q registers slots) (hHalted : a.halted = true) :
    a.Sound ∧ q.memory.Sound ∧ q.memory.size = a.size ∧ q.memory.peek = a.memory ∧
      q.units = a.units ∧ q.flushes = a.flushes := by
  obtain ⟨hWb, hMem, hEx⟩ := h.empty_of_halted hHalted
  have hUnits := h.back.units
  have hWords := h.back.rear.words
  have hFlushes := h.flushes
  rw [hWb, hMem, hEx] at hUnits hFlushes
  rw [hWb] at hWords
  exact ⟨h.back.rear.sound, h.back.rear.soundMemory, h.back.rear.size, hWords, hUnits, hFlushes⟩

end Follows

/-- The registers after the commit of the next instruction. -/
theorem Machine.written_commit {a : Machine} {c : Commit} (h : c.timeless = a.commit) :
    written a.registers c = a.next.registers := by
  have hValue : c.timeless.value = a.commit.value := congrArg Commit.value h
  have hRd : c.timeless.rd = a.commit.rd := congrArg Commit.rd h
  change c.value = a.commit.value at hValue
  change c.rd = a.commit.rd at hRd
  have hSame : written a.registers c = written a.registers a.commit := by
    unfold written
    rw [hValue, hRd]
  rw [hSame]
  unfold next
  rfl

/-- What a tick does to a pipeline that stands for the machine `a`. The stages leave the state `m`
to the commit. -/
inductive Tick (p : Pipeline) (a : Machine) (m : Making) : Except Failure Unit × Pipeline → Prop
  | idle {q : Pipeline} (hWb : p.slots.writeback = none)
      (hRest : q = { m.pipeline with
        slots := m.next, cycle := p.cycle + 1, stalls := bumpAll p.stalls m.stalls
        coverage := q.coverage, traceLog := q.traceLog })
      (hGrave : q.grave = p.grave) : Tick p a m (.ok (), q)
  | retires {q : Pipeline} {c : Commit} {mismatches : List Mismatch}
      {reference : Option Reference} (hWb : p.slots.writeback.isSome = true)
      (hCommit : c.timeless = a.commit) (hCycle : c.cycle = p.cycle)
      (hKind : a.instruction.kind ≠ .illegal)
      (hCompared : compared p.reference c = (.ok mismatches, reference))
      (hRest : q = { m.pipeline with
        slots := slotsAfter a.instruction.kind m.next
        status := statusAfter a.instruction.kind .running
        cycle := p.cycle + 1, registers := a.next.registers
        stalls := bumpAll p.stalls m.stalls, retired := p.retired + 1
        commitLog := c :: p.commitLog, reference
        coverage := q.coverage, forwards := q.forwards, traceLog := q.traceLog
        faultLog := q.faultLog })
      (hGrave : q.grave = mismatchFaults (p.cycle + 1) c.pc mismatches ++ p.grave) :
      Tick p a m (.ok (), q)
  | fails {q : Pipeline} {c : Commit} {f : Failure} {reference : Option Reference}
      (hWb : p.slots.writeback.isSome = true) (hCommit : c.timeless = a.commit)
      (hKind : a.instruction.kind ≠ .illegal)
      (hCompared : compared p.reference c = (.error f, reference))
      (hRest : q = { m.pipeline with
        slots := m.next, cycle := p.cycle + 1, registers := a.next.registers
        stalls := bumpAll p.stalls m.stalls, retired := p.retired + 1, reference
        coverage := q.coverage, forwards := q.forwards, traceLog := q.traceLog
        faultLog := q.faultLog }) : Tick p a m (.error f, q)
  | illegal {q : Pipeline} {f : Fault} (hWb : p.slots.writeback.isSome = true)
      (hKind : a.instruction.kind = .illegal)
      (hRest : q = { m.pipeline with
        slots := .bubbles, status := .illegalInstruction, cycle := p.cycle + 1
        registers := a.next.registers, stalls := bumpAll p.stalls m.stalls
        coverage := q.coverage, traceLog := q.traceLog, faultLog := q.faultLog })
      (hGrave : q.grave = f :: p.grave) (hFault : f.kind = .decode) (hPc : f.pc = a.pc) :
      Tick p a m (.ok (), q)

/-- Whatever the commit does, the machine that the stages have made the pipeline follow is the one it
still follows. -/
theorem Tick.follows {p : Pipeline} {a b : Machine} {m : Making}
    {t : Except Failure Unit × Pipeline} {registers : Registers} {slots : Slots}
    (h : Tick p a m t) (hNext : Follows b m.pipeline registers slots) :
    Follows b t.2 registers slots := by
  cases h with
  | idle hWb hRest hGrave =>
      refine hNext.of_eq ?_ ?_ ?_ ?_ ?_ <;> dsimp only <;> rw [hRest]
  | retires hWb hCommit hCycle hKind hCompared hRest hGrave =>
      refine hNext.of_eq ?_ ?_ ?_ ?_ ?_ <;> dsimp only <;> rw [hRest]
  | fails hWb hCommit hKind hCompared hRest =>
      refine hNext.of_eq ?_ ?_ ?_ ?_ ?_ <;> dsimp only <;> rw [hRest]
  | illegal hWb hKind hRest hGrave hFault hPc =>
      refine hNext.of_eq ?_ ?_ ?_ ?_ ?_ <;> dsimp only <;> rw [hRest]

namespace Round

variable {a : Machine} {p : Pipeline} {m₁ m₂ m₃ : Making} {free₁ free₂ free₃ : Bool}
  {control : Control} {commit : Option Commit}

/-- The commit is the end of a tick. -/
theorem tick_eq (h : Round p a m₁ m₂ m₃ free₁ free₂ free₃ control commit) :
    p.tick = commitPoint (madeFetch m₃ p.slots.fetch free₃ control) p.slots commit := by
  unfold Pipeline.tick
  rw [h.make]

/-- A round ends in one of the ways of a tick. -/
theorem tick (h : Round p a m₁ m₂ m₃ free₁ free₂ free₃ control commit)
    (hFollows : Follows a p p.registers p.slots) :
    Tick p a (madeFetch m₃ p.slots.fetch free₃ control) p.tick := by
  have hStaged := h.staged hFollows
  have hTick := h.tick_eq
  generalize madeFetch m₃ p.slots.fetch free₃ control = m at hStaged hTick ⊢
  have hRegisters : m.pipeline.registers = a.registers :=
    hStaged.registers.trans hFollows.registers
  rw [hTick]
  cases hSlot : p.slots.writeback with
  | none =>
      have hNone : commit = none := by
        have hCommitted := h.committed
        rw [hSlot] at hCommitted
        exact Option.map_eq_none_iff.mp hCommitted
      obtain ⟨q, hPoint, hRest, hGrave⟩ := commitPoint_idle m p.slots
      rw [hStaged.cycle, hStaged.stalls] at hRest
      rw [hNone, hPoint]
      exact .idle hSlot hRest (hGrave.trans hStaged.grave)
  | some s =>
      obtain ⟨c, rfl, hCommit⟩ : ∃ c, commit = some c ∧ c.timeless = a.commit := by
        have hCommitted := h.committed
        rw [hSlot] at hCommitted
        exact Option.map_eq_some_iff.mp hCommitted
      have hWb : p.slots.writeback.isSome = true := by rw [hSlot]; rfl
      have hIns : c.timeless.ins = a.instruction := congrArg Commit.ins hCommit
      have hPc : c.timeless.pc = a.pc := congrArg Commit.pc hCommit
      change c.ins = a.instruction at hIns
      change c.pc = a.pc at hPc
      have hWritten : written m.pipeline.registers c = a.next.registers := by
        rw [hRegisters]
        exact Machine.written_commit hCommit
      by_cases hKind : a.instruction.kind = .illegal
      · obtain ⟨q, f, hPoint, hRest, hGrave, hFault, hAt⟩ :=
          commitPoint_illegal m p.slots (c := c) (by rw [hIns]; exact hKind)
        rw [hStaged.cycle, hStaged.stalls, hWritten] at hRest
        rw [hPoint]
        rw [hStaged.grave] at hGrave
        exact .illegal hWb hKind hRest hGrave hFault (hAt.trans hPc)
      · have hPoint := commitPoint_legal m p.slots (c := c) (by rw [hIns]; exact hKind)
        rw [hStaged.reference] at hPoint
        rcases hCompared : compared p.reference c with ⟨result, reference⟩
        rw [hCompared] at hPoint
        cases result with
        | error f =>
            obtain ⟨q, hFails, hRest⟩ := hPoint
            rw [hStaged.cycle, hStaged.stalls, hWritten, hStaged.retired] at hRest
            rw [hFails]
            exact .fails hWb hCommit hKind hCompared hRest
        | ok mismatches =>
            obtain ⟨q, hOk, hRest, hGrave⟩ := hPoint
            rw [hStaged.cycle, hStaged.stalls, hWritten, hStaged.running, hStaged.retired,
              hStaged.commitLog, hIns] at hRest
            rw [hStaged.cycle, hStaged.grave] at hGrave
            rw [hOk]
            exact .retires hWb hCommit (h.cycle c rfl) hKind hCompared hRest hGrave

end Round

/-- All that a tick of a run under way can do. -/
theorem Follows.tick {a : Machine} {p : Pipeline} (h : Follows a p p.registers p.slots)
    (hRun : p.status.finished = false) : ∃ m, Staged p m.pipeline ∧ Tick p a m p.tick := by
  obtain ⟨m₁, m₂, m₃, free₁, free₂, free₃, control, commit, hRound⟩ := h.round hRun
  exact ⟨_, hRound.staged h, hRound.tick h⟩

namespace Machine

/-- None of so many instructions ends the run. -/
def Runs (a : Machine) (n : Nat) : Prop := ∀ i < n, ending (after i a).instruction.kind = none

/-- The commits of so many instructions. -/
def history (a : Machine) (n : Nat) : List Commit := (List.range n).map fun i => (after i a).commit

/-- The last commit of a history comes at its end. -/
theorem history_succ (a : Machine) (n : Nat) :
    a.history (n + 1) = a.history n ++ [(after n a).commit] := by
  unfold history
  rw [List.range_succ, List.map_append, List.map_singleton]

theorem length_history (a : Machine) (n : Nat) : (a.history n).length = n := by
  unfold history
  rw [List.length_map, List.length_range]

theorem Runs.mono {a : Machine} {n k : Nat} (h : a.Runs n) (hLess : k ≤ n) : a.Runs k :=
  fun i hBefore => h i (Nat.lt_of_lt_of_le hBefore hLess)

theorem Runs.succ {a : Machine} {n : Nat} (h : a.Runs n)
    (hKind : ending (after n a).instruction.kind = none) : a.Runs (n + 1) := by
  intro i hLess
  rcases Nat.lt_succ_iff_lt_or_eq.mp hLess with hBefore | rfl
  · exact h i hBefore
  · exact hKind

/-- Only one instruction is the first to end a run. -/
theorem Runs.unique {a : Machine} {n k : Nat} (hN : a.Runs n) (hK : a.Runs k)
    (hEndN : ending (after n a).instruction.kind ≠ none)
    (hEndK : ending (after k a).instruction.kind ≠ none) : n = k := by
  rcases Nat.lt_trichotomy n k with hLess | hSame | hMore
  · exact absurd (hK n hLess) hEndN
  · exact hSame
  · exact absurd (hN k hMore) hEndK

end Machine

/-- A run has retired the first instructions of the machine `a`. -/
structure Retired (a : Machine) (n : Nat) (p : Pipeline) : Prop where
  retired : p.retired = n
  commits : p.commits.map Commit.timeless = a.history n
  runs : a.Runs n

/-- Only the counter and the log tell what has retired. -/
theorem Retired.of_eq {a : Machine} {n : Nat} {p q : Pipeline} (h : Retired a n p)
    (hRetired : q.retired = p.retired) (hCommits : q.commits = p.commits) : Retired a n q :=
  ⟨hRetired.trans h.retired, hCommits ▸ h.commits, h.runs⟩

/-- How far a run of the machine `a` has come. -/
inductive Reached (a : Machine) (p : Pipeline) : Prop
  | underWay {n : Nat} (hRetired : Retired a n p) (hOpen : (Machine.after n a).halted = false)
      (hFollows : Follows (Machine.after n a) p p.registers p.slots)
      (hStatus : p.status.finished = false ∨ p.status = .timeout)
  | exited {n : Nat} (hRuns : a.Runs n) (hRetired : p.retired = n + 1)
      (hCommits : p.commits.map Commit.timeless = a.history (n + 1))
      (hKind : (Machine.after n a).instruction.kind = .system)
      (hEnded : Ended (Machine.after (n + 1) a) p) (hStatus : p.status = .exited)
  | illegal {n : Nat} (hRetired : Retired a n p)
      (hKind : (Machine.after n a).instruction.kind = .illegal)
      (hEnded : Ended (Machine.after (n + 1) a) p) (hStatus : p.status = .illegalInstruction)

/-- A run from one state to another, tick after tick. None of the ticks fails. -/
inductive Steps (p : Pipeline) : Pipeline → Prop
  | refl : Steps p p
  | tick {q r : Pipeline} (h : Steps p q) (hRun : q.status.finished = false)
      (hTick : q.tick = (.ok (), r)) : Steps p r

namespace Steps

variable {p q r : Pipeline}

/-- A run of any length begins with a tick. -/
theorem head (h : Steps p q) :
    p = q ∨ ∃ r, p.status.finished = false ∧ p.tick = (.ok (), r) ∧ Steps r q := by
  induction h with
  | refl => exact .inl rfl
  | tick _ hRun hTick ih =>
      rcases ih with rfl | ⟨r, hFirst, hTickFirst, hRest⟩
      · exact .inr ⟨_, hRun, hTick, .refl⟩
      · exact .inr ⟨r, hFirst, hTickFirst, hRest.tick hRun hTick⟩

theorem trans (h : Steps p q) (h' : Steps q r) : Steps p r := by
  induction h' with
  | refl => exact h
  | tick _ hRun hTick ih => exact ih.tick hRun hTick

/-- A run goes one way only. -/
theorem linear (h : Steps p q) (h' : Steps p r) : Steps q r ∨ Steps r q := by
  induction h with
  | refl => exact .inl h'
  | tick _ hRun hTick ih =>
      rcases ih with hBehind | hBefore
      · rcases hBehind.head with rfl | ⟨s, -, hSame, hRest⟩
        · exact .inr (.tick .refl hRun hTick)
        · cases hTick.symm.trans hSame
          exact .inl hRest
      · exact .inr (hBefore.tick hRun hTick)

/-- A run that is over goes no further. -/
theorem eq_of_finished (h : Steps p q) (hEnd : p.status.finished = true) : p = q := by
  rcases h.head with hSame | ⟨_, hRun, -⟩
  · exact hSame
  · cases hEnd.symm.trans hRun

/-- A run ends in one state only. -/
theorem end_unique (h : Steps p q) (h' : Steps p r) (hEnd : q.status.finished = true)
    (hEnd' : r.status.finished = true) : q = r := by
  rcases h.linear h' with hBehind | hBefore
  · exact hBehind.eq_of_finished hEnd
  · exact (hBefore.eq_of_finished hEnd').symm

end Steps

/-- A commit is added to the history at its end. -/
theorem commits_cons {p q : Pipeline} {c : Commit} (h : q.commitLog = c :: p.commitLog) :
    q.commits.map Commit.timeless = p.commits.map Commit.timeless ++ [c.timeless] := by
  unfold Pipeline.commits
  rw [h, List.reverse_cons, List.map_append, List.map_singleton]

/-- An instruction that is not illegal ends the run only if it is a system instruction. -/
theorem ending_cases {kind : Kind} (h : kind ≠ .illegal) :
    ending kind = none ∨ kind = .system ∧ ending kind = some .exited := by
  cases kind <;> first | exact .inl rfl | exact .inr ⟨rfl, rfl⟩ | exact absurd rfl h

/-- Behind such an instruction the run goes on with the slots that its tick has made, or exits with
none. -/
theorem after_cases {kind : Kind} (h : kind ≠ .illegal) :
    (ending kind = none ∧ (∀ next, slotsAfter kind next = next) ∧
        ∀ status, statusAfter kind status = status) ∨
      (kind = .system ∧ ending kind = some .exited ∧ (∀ next, slotsAfter kind next = .bubbles) ∧
        ∀ status, statusAfter kind status = .exited) := by
  unfold slotsAfter statusAfter
  rcases ending_cases h with hGoesOn | ⟨hSystem, hEnds⟩
  · rw [hGoesOn]
    exact .inl ⟨rfl, fun _ => rfl, fun _ => rfl⟩
  · rw [hEnds]
    exact .inr ⟨hSystem, rfl, fun _ => rfl, fun _ => rfl⟩

namespace Round

variable {a : Machine} {n : Nat} {p q : Pipeline} {m₁ m₂ m₃ : Making}
  {free₁ free₂ free₃ : Bool} {control : Control} {commit : Option Commit}

/-- A tick that does not fail brings a run forward. -/
theorem reached (h : Round p (Machine.after n a) m₁ m₂ m₃ free₁ free₂ free₃ control commit)
    (hRetired : Retired a n p) (hOpen : (Machine.after n a).halted = false)
    (hFollows : Follows (Machine.after n a) p p.registers p.slots)
    (hTick : p.tick = (.ok (), q)) : Reached a q := by
  have hNext := h.follows hFollows
  have hStaged := h.staged hFollows
  have hCase := h.tick hFollows
  rw [hTick] at hCase
  generalize madeFetch m₃ p.slots.fetch free₃ control = m at hNext hStaged hCase
  have hBehind := hCase.follows hNext
  cases hCase with
  | idle hWb hRest hGrave =>
      rw [hWb, Machine.past_none] at hBehind
      refine .underWay (hRetired.of_eq ?_ ?_) hOpen ?_ ?_
      · rw [hRest]
        exact hStaged.retired
      · rw [hRest]
        exact hStaged.commits
      · have hSame : q.registers = (Machine.after n a).registers := by
          rw [hRest]
          exact hStaged.registers.trans hFollows.registers
        have hSlots : q.slots = m.next := by rw [hRest]
        rw [hSame, hSlots]
        exact hBehind
      · left
        rw [hRest]
        exact congrArg RunStatus.finished hStaged.running
  | @retires _ c mismatches reference hWb hCommit hCycle hKind hCompared hRest hGrave =>
      obtain ⟨s, hSlot⟩ := Option.isSome_iff_exists.mp hWb
      rw [hSlot, Machine.past_some, ← Machine.after_succ] at hBehind
      have hRetiredOne : q.retired = n + 1 := by
        rw [hRest, ← hRetired.retired]
      have hHistory : q.commits.map Commit.timeless = a.history (n + 1) := by
        have hCons : q.commitLog = c :: p.commitLog := by rw [hRest]
        rw [commits_cons hCons, hRetired.commits, hCommit, Machine.history_succ]
      have hSame : q.registers = (Machine.after (n + 1) a).registers := by
        rw [hRest, Machine.after_succ]
      have hSlots : q.slots = slotsAfter (Machine.after n a).instruction.kind m.next := by
        rw [hRest]
      have hStatus : q.status = statusAfter (Machine.after n a).instruction.kind .running := by
        rw [hRest]
      have hHalted : (Machine.after (n + 1) a).halted =
          (ending (Machine.after n a).instruction.kind).isSome := by
        rw [Machine.after_succ, Machine.next_halted]
      rcases after_cases hKind with
        ⟨hGoesOn, hNextSlots, hNextStatus⟩ | ⟨hSystem, hEnds, hNextSlots, hNextStatus⟩
      · rw [hGoesOn] at hHalted
        refine .underWay ⟨hRetiredOne, hHistory, hRetired.runs.succ hGoesOn⟩ hHalted ?_ ?_
        · rw [hSame, hSlots, hNextSlots]
          exact hBehind
        · left
          rw [hStatus, hNextStatus]
          rfl
      · rw [hEnds] at hHalted
        rw [hNextSlots] at hSlots
        rw [hNextStatus] at hStatus
        obtain ⟨hSound, hMemory, hSize, hWords, hUnits, hFlushes⟩ := hBehind.ended hHalted
        exact .exited hRetired.runs hRetiredOne hHistory hSystem
          ⟨hSound, hMemory, hSize, hSame, hWords, hUnits, hFlushes, hSlots⟩ hStatus
  | @illegal _ f hWb hKind hRest hGrave hFault hPc =>
      obtain ⟨s, hSlot⟩ := Option.isSome_iff_exists.mp hWb
      rw [hSlot, Machine.past_some, ← Machine.after_succ] at hBehind
      have hHalted : (Machine.after (n + 1) a).halted = true := by
        rw [Machine.after_succ, Machine.next_halted, hKind]
        rfl
      obtain ⟨hSound, hMemory, hSize, hWords, hUnits, hFlushes⟩ := hBehind.ended hHalted
      refine .illegal (hRetired.of_eq ?_ ?_) hKind ⟨hSound, hMemory, hSize, ?_, hWords, hUnits,
        hFlushes, ?_⟩ ?_
      · rw [hRest]
        exact hStaged.retired
      · rw [hRest]
        exact hStaged.commits
      · rw [hRest, Machine.after_succ]
      · rw [hRest]
      · rw [hRest]

end Round

namespace Reached

variable {a : Machine} {p q : Pipeline}

/-- A run that has not finished is under way. -/
theorem live (h : Reached a p) (hRun : p.status.finished = false) :
    ∃ n, Retired a n p ∧ (Machine.after n a).halted = false ∧
      Follows (Machine.after n a) p p.registers p.slots := by
  have hNot : ∀ {status : RunStatus}, p.status = status → status.finished = true → False := by
    intro status hIs hFinished
    rw [hIs, hFinished] at hRun
    cases hRun
  cases h with
  | underWay hRetired hOpen hFollows => exact ⟨_, hRetired, hOpen, hFollows⟩
  | exited _ _ _ _ _ hStatus => exact (hNot hStatus rfl).elim
  | illegal _ _ _ hStatus => exact (hNot hStatus rfl).elim

/-- Whatever a run comes to, it has followed the machine. -/
theorem tick (h : Reached a p) (hRun : p.status.finished = false)
    (hTick : p.tick = (.ok (), q)) : Reached a q := by
  obtain ⟨n, hRetired, hOpen, hFollows⟩ := h.live hRun
  obtain ⟨_, _, _, _, _, _, _, _, hRound⟩ := hFollows.round hRun
  exact hRound.reached hRetired hOpen hFollows hTick

end Reached

/-- A run without a failing tick keeps to the machine. -/
theorem Steps.reached {a : Machine} {p q : Pipeline} (h : Steps p q) (hStart : Reached a p) :
    Reached a q := by
  induction h with
  | refl => exact hStart
  | tick _ hRun hTick ih => exact ih.tick hRun hTick

end AccelPipe

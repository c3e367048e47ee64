import AccelPipe.Proofs.Simulator.Compared

/-! The pipeline refines sequential execution. Whatever a run has committed is what the reference
machine does when it executes the program one instruction at a time, and both end in the same
state. -/
namespace AccelPipe

open Pipeline

/-- The store of the instruction in Writeback, if it has one. It has been made in memory, but it is
not committed yet. -/
def Pipeline.uncommitted (p : Pipeline) : Option Store :=
  p.slots.writeback.bind fun s => (p.commitOf s).toOption.bind Commit.store

/-- The reference machine after a store, if there is one. -/
def Reference.stored (r : Reference) (store : Option Store) : Reference :=
  store.elim r fun s => r.poke s.addr s.value

/-- A state of a run that refines sequential execution, which the reference machine `r` starts. -/
structure Refines (r : Reference) (p : Pipeline) : Prop where
  /-- The reference machine of the run has executed what the run has retired. -/
  reference : p.reference = some (Reference.after p.retired r)
  clean : ∀ f ∈ p.faults, f.kind ≠ .correctness
  commits : p.commits.map (fun c => some c.record) =
    (List.range p.retired).map fun i => (Reference.after i r).record
  registers : p.registers = (Reference.after p.retired r).registers
  memory : p.memory.snapshot =
    ((Reference.after p.retired r).stored p.uncommitted).memory.toList
  final : p.status = .exited ∨ p.status = .illegalInstruction →
    (Reference.after p.retired r).compareFinal p.registers.toList p.memory.snapshot = .ok []
  units : p.status = .exited ∨ p.status = .illegalInstruction →
    p.units.mac.acc = (Reference.after p.retired r).macAcc ∧
      p.units.fir.coefficients = (Reference.after p.retired r).coefficients ∧
      p.units.fir.samples = (Reference.after p.retired r).samples ∧
      p.units.conv2d.kernel = (Reference.after p.retired r).kernel ∧
      p.units.pool.nextBase = (Reference.after p.retired r).poolNext ∧
      p.units.pool.pitch = (Reference.after p.retired r).poolPitch

/-- The commits of the machine are the steps of the reference machine. -/
theorem InStep.history {a : Machine} {r : Reference} (h : InStep r a) {n : Nat}
    (hExact : r.Exact n) (hRuns : ∀ i < n, a.Runs i) :
    (a.history n).map (fun c => some c.record) =
      (List.range n).map fun i => (Reference.after i r).record := by
  unfold Machine.history
  rw [List.map_map]
  refine List.map_congr_left fun i hPlace => ?_
  have hLess := List.mem_range.mp hPlace
  obtain ⟨hNow, hWindow⟩ := h.at_after (hExact.mono hLess) (hRuns i hLess)
  exact (hNow.next hWindow).2.1.symm

/-- Memory is one store ahead of the commits at most. -/
theorem Follows.snapshot {a : Machine} {r : Reference} {p : Pipeline}
    (h : Follows a p p.registers p.slots) (hAgrees : Agrees r a) :
    p.memory.snapshot = (r.stored p.uncommitted).memory.toList := by
  have hWords := h.back.rear.words
  have hSize : p.memory.size = r.memory.size := h.back.rear.size.trans hAgrees.size.symm
  have hSound := h.back.rear.sound
  unfold Pipeline.uncommitted
  cases hSlot : p.slots.writeback with
  | none =>
      rw [hSlot] at hWords
      exact Memory.snapshot_eq hSize (hWords.trans hAgrees.words.symm)
  | some s =>
      rw [hSlot, Machine.past_some] at hWords
      have hWrap : ∀ addr, p.memory.wrap addr = a.wrap addr := by
        intro addr
        unfold Memory.wrap Machine.wrap
        rw [h.back.rear.size]
      obtain ⟨c, hCommit, hTimeless, -⟩ :=
        (h.back.rear.writeback s hSlot).commitOf p hSound hWrap
      have hStore : c.timeless.store = a.store := congrArg Commit.store hTimeless
      change c.store = a.store at hStore
      rw [Option.bind_some, hCommit]
      change _ = (r.stored c.store).memory.toList
      rw [hStore]
      cases hIs : a.store with
      | none =>
          have hKind : a.instruction.kind ≠ .store := by
            intro hKind
            obtain ⟨_, _, -, -, hSome⟩ := Machine.store_of_store hSound hKind
            rw [hIs] at hSome
            cases hSome
          rw [Machine.next_memory_of_not_store hKind] at hWords
          exact Memory.snapshot_eq hSize (hWords.trans hAgrees.words.symm)
      | some st =>
          have hPoked := Reference.peek_store hAgrees.size hAgrees.words hSound hIs
          refine Memory.snapshot_eq (hSize.trans ?_) (hWords.trans hPoked.symm)
          exact Array.size_setIfInBounds.symm

/-- With nothing in Writeback, there is no store ahead of the commits. -/
theorem Ended.snapshot {a : Machine} {r : Reference} {p : Pipeline} (h : Ended a p)
    (hAgrees : Agrees r a) : p.memory.snapshot = (r.stored p.uncommitted).memory.toList := by
  unfold Pipeline.uncommitted
  rw [h.slots]
  exact Memory.snapshot_eq (h.size.trans hAgrees.size.symm) (h.words.trans hAgrees.words.symm)

/-- A pipeline that compares without a difference, and has reached a state of the machine, refines
the reference machine. -/
theorem Compared.refines {a : Machine} {r : Reference} {p : Pipeline} (h : Compared true r p)
    (hStep : InStep r a) (hExact : r.Exact p.retired) (hReached : Reached a p) : Refines r p := by
  have hEnds : p.status = .exited ∨ p.status = .illegalInstruction →
      ∃ b, Ended b p ∧ Agrees (Reference.after p.retired r) b := by
    intro hStatus
    refine hReached.agrees_end hStep hExact ?_ ?_ <;>
      rcases hStatus with hStatus | hStatus <;> rw [hStatus] <;> first | rfl | nofun
  have hCommits : p.commits.map Commit.timeless = a.history p.retired →
      (∀ i < p.retired, a.Runs i) → p.commits.map (fun c => some c.record) =
        (List.range p.retired).map fun i => (Reference.after i r).record := by
    intro hHistory hRuns
    rw [← hStep.history hExact hRuns, ← hHistory, List.map_map]
    rfl
  have hState : p.commits.map (fun c => some c.record) =
        ((List.range p.retired).map fun i => (Reference.after i r).record) ∧
      p.registers = (Reference.after p.retired r).registers ∧
      p.memory.snapshot =
        ((Reference.after p.retired r).stored p.uncommitted).memory.toList := by
    cases hReached with
    | @underWay n hRetired hOpen hFollows hStatus =>
        obtain rfl := hRetired.retired
        obtain ⟨hNow, -⟩ := hStep.after hExact hRetired.runs
        exact ⟨hCommits hRetired.commits fun i hLess => hRetired.runs.mono (Nat.le_of_lt hLess),
          hFollows.registers.trans hNow.registers.symm, hFollows.snapshot hNow.toAgrees⟩
    | @exited n hRuns hRetired hHistory hKind hEnded hStatus =>
        obtain ⟨b, hEnd, hAgrees⟩ := hEnds (.inl hStatus)
        rw [← hRetired] at hHistory
        refine ⟨hCommits hHistory fun i hLess => hRuns.mono ?_,
          hEnd.registers.trans hAgrees.registers.symm, hEnd.snapshot hAgrees⟩
        rw [hRetired] at hLess
        exact Nat.lt_succ_iff.mp hLess
    | @illegal n hRetired hKind hEnded hStatus =>
        obtain ⟨b, hEnd, hAgrees⟩ := hEnds (.inr hStatus)
        obtain rfl := hRetired.retired
        exact ⟨hCommits hRetired.commits fun i hLess => hRetired.runs.mono (Nat.le_of_lt hLess),
          hEnd.registers.trans hAgrees.registers.symm, hEnd.snapshot hAgrees⟩
  obtain ⟨hSteps, hRegisters, hMemory⟩ := hState
  refine ⟨h.reference, h.faults_clean, hSteps, hRegisters, hMemory, fun hStatus => ?_, fun hStatus => ?_⟩
  · obtain ⟨b, hEnd, hAgrees⟩ := hEnds hStatus
    exact hEnd.compareFinal hAgrees
  · obtain ⟨b, hEnd, hAgrees⟩ := hEnds hStatus
    have hMirrors := hAgrees.mirrors
    rw [hEnd.units]
    exact ⟨hMirrors.macAcc.symm, hMirrors.coefficients.symm, hMirrors.samples.symm,
      hMirrors.kernel.symm, hMirrors.poolNext.symm, hMirrors.poolPitch.symm⟩

namespace Simulator

/-- A simulator after so many ticks. Ticks after the end of the run are refused. -/
def ticks (s : Simulator) : Nat → Simulator
  | 0 => s
  | k + 1 => (s.ticks k).tick.2

variable {c : Config} {program : Image} {data : List (Int × List Int)}

/-- After every tick the pipeline has reached a state of the machine, with no difference from the
reference machine, and no tick retires more than one instruction. -/
theorem ticks_compared (hValid : c.Valid) (hSize : program.size < 0x40000000) {k : Nat}
    (hExact : (c.reference program data).Exact k) :
    Reached (c.machine program data) ((loaded c program data).ticks k).pipeline ∧
      Compared c.checkReference (c.reference program data)
        ((loaded c program data).ticks k).pipeline ∧
      ((loaded c program data).ticks k).pipeline.retired ≤ k := by
  induction k with
  | zero =>
      unfold ticks
      rw [loaded_pipeline]
      refine ⟨hValid.reached_build program data, c.compared_build program data, ?_⟩
      rw [build_eq]
      exact Nat.le_refl 0
  | succ k ih =>
      obtain ⟨hReached, hCompared, hCount⟩ := ih (hExact.mono (Nat.le_succ k))
      obtain ⟨hNext, hStill, hOne⟩ := advance_compared
        ((loaded c program data).ticks k).config.maxCycles hCompared (hValid.inStep hSize data)
        (hExact.mono (Nat.succ_le_succ hCount)) hReached
      exact ⟨hNext, hStill, Nat.le_trans hOne (Nat.succ_le_succ hCount)⟩

/-- Every state of a run refines sequential execution, if the addresses of windows do not leave the
numbers of 64 bits. -/
theorem ticks_refines (hValid : c.Valid) (hChecks : c.checkReference = true)
    (hSize : program.size < 0x40000000) {k : Nat}
    (hExact : (c.reference program data).Exact k) :
    Refines (c.reference program data) ((loaded c program data).ticks k).pipeline := by
  obtain ⟨hReached, hCompared, hCount⟩ := ticks_compared hValid hSize hExact
  rw [hChecks] at hCompared
  exact hCompared.refines (hValid.inStep hSize data) (hExact.mono hCount) hReached

/-- A run that stores a word, loads it, and exits. -/
theorem ticks_refines_of_load_use :
    ((loaded .small #[0x00500093, 0x00102023, 0x00002103, 0x00210133, 0x73] []).ticks
        20).status = .exited ∧
      Refines (Config.small.reference #[0x00500093, 0x00102023, 0x00002103, 0x00210133, 0x73] [])
        ((loaded .small #[0x00500093, 0x00102023, 0x00002103, 0x00210133, 0x73] []).ticks
          20).pipeline :=
  ⟨by decide +kernel, ticks_refines Config.valid_small rfl (by decide)
    (Config.valid_small.exact _ _ (by decide))⟩

end Simulator

end AccelPipe

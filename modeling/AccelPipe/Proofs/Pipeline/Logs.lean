import AccelPipe.Proofs.Pipeline.Reports
import AccelPipe.Proofs.Pipeline.Standing

/-! The end of a tick, as it is seen from outside: the stalls are counted, the tick is traced, and
the instruction that has reached the end is retired or ends the run as an illegal one. -/
namespace AccelPipe

open Pipeline

namespace Pipeline

/-- The commits that a tick retires, one at most. -/
def retiring (commit : Option Commit) : List Commit :=
  commit.toList.filter (·.ins.kind ≠ .illegal)

/-- The illegal instruction that a tick ends the run with, if there is one. -/
def refused (commit : Option Commit) : List Commit :=
  commit.toList.filter (·.ins.kind = .illegal)

/-- What reaches the end of a tick is either retired or refused. -/
theorem retiring_refused (commit : Option Commit) :
    (commit.map (·.pc)).toList = (retiring commit).map (·.pc) ++ (refused commit).map (·.pc) := by
  cases commit with
  | none => rfl
  | some c => by_cases hKind : c.ins.kind = .illegal <;> simp [retiring, refused, hKind]

theorem refused_length (commit : Option Commit) :
    (refused commit).length = if refused commit ≠ [] then 1 else 0 := by
  cases commit with
  | none => rfl
  | some c => by_cases hKind : c.ins.kind = .illegal <;> simp [refused, hKind]

/-- So many faults of a kind. -/
def faultsOf (p : Pipeline) (kind : FaultKind) : Nat := p.faults.countP (·.kind = kind)

theorem countP_kind {log : List Fault} {kind : FaultKind} (h : ∀ f ∈ log, f.kind ≠ kind) :
    log.countP (·.kind = kind) = 0 :=
  List.countP_eq_zero.mpr fun f hHeld => by simp [h f hHeld]

theorem filter_kind {log : List Fault} {kind : FaultKind} (h : ∀ f ∈ log, f.kind ≠ kind) :
    log.filter (·.kind = kind) = [] :=
  List.filter_eq_nil_iff.mpr fun f hHeld => by simp [h f hHeld]

/-- Faults of one kind add up over the parts of a log. -/
theorem faultsOf_append {p q : Pipeline} {log : List Fault} (h : q.faults = p.faults ++ log)
    (kind : FaultKind) : q.faultsOf kind = p.faultsOf kind + log.countP (·.kind = kind) := by
  unfold faultsOf
  rw [h, List.countP_append]

/-- The end of a tick, from the state `m` that the stages leave behind to the state `q`. All of this is
so even if the comparison of the commit fails. -/
structure Counted (m : Making) (commit : Option Commit) (q : Pipeline) : Prop where
  config : q.config = m.pipeline.config
  program : q.program = m.pipeline.program
  memory : q.memory = m.pipeline.memory
  flushes : q.flushes = m.pipeline.flushes
  cycle : q.cycle = m.pipeline.cycle + 1
  stalls : q.stalls = bumpAll m.pipeline.stalls m.stalls
  retired : q.retired = m.pipeline.retired + (retiring commit).length
  kinds : q.coverage.kinds =
    bumpAll m.pipeline.coverage.kinds ((retiring commit).map (·.ins.kind))
  hits : ∀ path, q.coverage.hitsOf path =
    m.pipeline.coverage.hitsOf path + m.stalls.countP (HazardPath.stall · = path) +
      ((retiring commit).flatMap (·.paths)).countP (HazardPath.forward · = path) +
      if path = .saturation then (retiring commit).countP (·.saturated) else 0
  forwards : q.forwards = bumpAll m.pipeline.forwards ((retiring commit).flatMap (·.paths))
  trace : m.pipeline.config.trace = true → ∃ entry, q.trace = m.pipeline.trace ++ [entry] ∧
    entry.stalls = m.stalls ∧ entry.committed = commit.map (·.pc)
  /-- Besides the differences that a comparison finds, a clamped result and an illegal instruction
  are faults. -/
  faults : ∃ log, q.faults = m.pipeline.faults ++ log ∧
    (∀ f ∈ log, f.cycle = m.pipeline.cycle + 1) ∧ log.countP (·.kind = .bankConflict) = 0 ∧
    log.countP (·.kind = .saturation) = (retiring commit).countP (·.saturated) ∧
    (log.filter (·.kind = .decode)).map (·.pc) = (refused commit).map (·.pc)
  status : q.status = .illegalInstruction ↔ refused commit ≠ []
  known : m.pipeline.coverage.Known → q.coverage.Known

/-- What a tick adds to the log of commits: nothing, if it fails. -/
def landing (result : Except Failure Unit) (commit : Option Commit) : List Commit :=
  match result with
  | .ok _ => retiring commit
  | .error _ => []

/-- A tick logs at most what it retires. -/
theorem landing_sublist (result : Except Failure Unit) (commit : Option Commit) :
    (landing result commit).Sublist (retiring commit) := by
  cases result with
  | ok _ => exact List.Sublist.refl _
  | error _ => exact List.nil_sublist _

/-! What the parts of the end of a tick write. -/

/-- A traced cycle puts down one entry, with its stalls and what has left Writeback. -/
theorem trace_entryOf {m : Making} {q : Pipeline} {cur : Slots} {commit : Option Commit}
    (hLog : q.traceLog = entryOf m cur commit ++ m.pipeline.traceLog)
    (hTrace : m.pipeline.config.trace = true) :
    ∃ entry, q.trace = m.pipeline.trace ++ [entry] ∧ entry.stalls = m.stalls ∧
      entry.committed = commit.map (·.pc) := by
  unfold entryOf at hLog
  rw [if_pos hTrace] at hLog
  refine ⟨⟨m.pipeline.cycle, cur, m.stalls, commit.map (·.pc), m.flushed⟩, ?_, rfl, rfl⟩
  unfold trace
  rw [hLog, List.reverse_append]
  rfl

/-- A comparison that fails finds no differences. -/
theorem compare_rest {p q : Pipeline} {c : Commit} {result : Except Failure Unit}
    (h : p.compare c = (result, q)) :
    ∃ mismatches, q =
      { p with
        reference := q.reference
        faultLog := mismatchFaults p.cycle c.pc mismatches ++ p.faultLog } := by
  have hCompare := compare_eq p c
  rcases hCompared : compared p.reference c with ⟨differences, reference⟩
  rw [hCompared] at hCompare
  cases differences with
  | error f =>
      cases hCompare.symm.trans h
      exact ⟨[], rfl⟩
  | ok mismatches =>
      cases hCompare.symm.trans h
      exact ⟨mismatches, rfl⟩

variable {m : Making} {cur : Slots} {q : Pipeline}

/-- A commit puts down a fault exactly if its result was clamped. -/
theorem clampFaults_spec (cycle : Nat) (c : Commit) :
    (∀ f ∈ clampFaults cycle c, f.kind = .saturation ∧ f.cycle = cycle) ∧
      (clampFaults cycle c).length = [c].countP (·.saturated) := by
  unfold clampFaults
  split <;> rename_i hClamped <;> simp [hClamped]

/-- Each mismatch is a fault of the cycle and the instruction that show it. -/
theorem mismatchFaults_spec {cycle : Nat} {pc : Int} {mismatches : List Mismatch} {f : Fault}
    (h : f ∈ mismatchFaults cycle pc mismatches) : f.kind = .correctness ∧ f.cycle = cycle := by
  obtain ⟨m, -, rfl⟩ := List.mem_map.mp (List.mem_reverse.mp h)
  exact ⟨rfl, rfl⟩

/-- The faults of an instruction that is retired, in the order in which they are found. -/
theorem retired_faults (cycle : Nat) (c : Commit) (mismatches : List Mismatch) :
    let log := (mismatchFaults cycle c.pc mismatches ++ clampFaults cycle c).reverse
    (∀ f ∈ log, f.cycle = cycle) ∧ log.countP (·.kind = .bankConflict) = 0 ∧
      log.countP (·.kind = .saturation) = [c].countP (·.saturated) ∧
      log.filter (·.kind = .decode) = [] := by
  intro log
  obtain ⟨hClamped, hLength⟩ := clampFaults_spec cycle c
  have hDiffer : ∀ f ∈ mismatchFaults cycle c.pc mismatches,
      f.kind = .correctness ∧ f.cycle = cycle := fun _ => mismatchFaults_spec
  have hOf : ∀ f ∈ log, (f.kind = .correctness ∨ f.kind = .saturation) ∧ f.cycle = cycle := by
    intro f hHeld
    rcases List.mem_append.mp (List.mem_reverse.mp hHeld) with hNew | hNew
    · exact ⟨.inl (hDiffer f hNew).1, (hDiffer f hNew).2⟩
    · exact ⟨.inr (hClamped f hNew).1, (hClamped f hNew).2⟩
  refine ⟨fun f hHeld => (hOf f hHeld).2, countP_kind fun f hHeld => ?_, ?_,
    filter_kind fun f hHeld => ?_⟩
  · rcases (hOf f hHeld).1 with hKind | hKind <;> rw [hKind] <;> decide
  · rw [List.countP_reverse, List.countP_append, ← hLength,
      countP_kind fun f hHeld => by rw [(hDiffer f hHeld).1]; decide, Nat.zero_add]
    exact List.countP_eq_length.mpr fun f hHeld => by simp [(hClamped f hHeld).1]
  · rcases (hOf f hHeld).1 with hKind | hKind <;> rw [hKind] <;> decide

/-- A tick that retires nothing. -/
theorem Counted.idle (cur : Slots)
    (hRest : q = { m.pipeline with
      slots := q.slots, cycle := m.pipeline.cycle + 1
      stalls := bumpAll m.pipeline.stalls m.stalls
      coverage := m.pipeline.coverage.stalled m.stalls m.pipeline.cycle
      traceLog := entryOf m cur none ++ m.pipeline.traceLog })
    (hRunning : m.pipeline.status = .running) : Counted m none q := by
  rw [hRest]
  refine ⟨rfl, rfl, rfl, rfl, rfl, rfl, rfl, ?_, fun path => ?_, rfl, trace_entryOf rfl,
    ⟨[], by simp [Pipeline.faults], by simp [retiring, refused]⟩, by simp [refused, hRunning],
    fun hKnown => hKnown.stalled _ _⟩
  · exact Coverage.kinds_stalled _ _ _
  · simp [Coverage.hitsOf_stalled, retiring]

/-- A tick that ends the run with an illegal instruction. -/
theorem Counted.illegal (cur : Slots) {c : Commit} (hKind : c.ins.kind = .illegal) {message : String}
    (hRest : q = { m.pipeline with
      slots := q.slots, registers := q.registers, status := .illegalInstruction
      cycle := m.pipeline.cycle + 1, stalls := bumpAll m.pipeline.stalls m.stalls
      coverage := m.pipeline.coverage.stalled m.stalls m.pipeline.cycle
      traceLog := entryOf m cur (some c) ++ m.pipeline.traceLog
      faultLog := ⟨.decode, m.pipeline.cycle + 1, c.pc, message⟩ :: m.pipeline.faultLog }) :
    Counted m (some c) q := by
  have hNone : retiring (some c) = [] := by simp [retiring, hKind]
  have hOne : refused (some c) = [c] := by simp [refused, hKind]
  rw [hRest]
  refine ⟨rfl, rfl, rfl, rfl, rfl, rfl, ?_, ?_, fun path => ?_, ?_,
    trace_entryOf rfl,
    ⟨[⟨.decode, m.pipeline.cycle + 1, c.pc, message⟩], by simp [Pipeline.faults], ?_⟩,
    by simp [hOne], fun hKnown => hKnown.stalled _ _⟩
  · simp [hNone]
  · rw [hNone]
    exact Coverage.kinds_stalled _ _ _
  · simp [Coverage.hitsOf_stalled, hNone]
  · rw [hNone]
    rfl
  · simp [hNone, hOne]

/-- A tick that retires an instruction, which a comparison may find to be different. -/
theorem Counted.legal (cur : Slots) {c : Commit} (hKind : c.ins.kind ≠ .illegal)
    (mismatches : List Mismatch)
    (hRest : q = { m.pipeline with
      slots := q.slots, registers := q.registers, reference := q.reference, status := q.status
      cycle := m.pipeline.cycle + 1, stalls := bumpAll m.pipeline.stalls m.stalls
      coverage := (m.pipeline.coverage.stalled m.stalls m.pipeline.cycle).retired c
      forwards := m.pipeline.forwards.note c.paths, retired := m.pipeline.retired + 1
      commitLog := q.commitLog
      traceLog := entryOf m cur (some c) ++ m.pipeline.traceLog
      faultLog := mismatchFaults (m.pipeline.cycle + 1) c.pc mismatches ++
        (clampFaults (m.pipeline.cycle + 1) c ++ m.pipeline.faultLog) })
    (hStatus : q.status ≠ .illegalInstruction) : Counted m (some c) q := by
  have hOne : retiring (some c) = [c] := by simp [retiring, hKind]
  have hNone : refused (some c) = [] := by simp [refused, hKind]
  obtain ⟨hCycle, hBanks, hClamped, hDecoded⟩ :=
    retired_faults (m.pipeline.cycle + 1) c mismatches
  have hNot : q.status = .illegalInstruction ↔ refused (some c) ≠ [] := by simp [hNone, hStatus]
  rw [hRest] at hNot ⊢
  refine ⟨rfl, rfl, rfl, rfl, rfl, rfl, ?_, ?_, fun path => ?_, ?_,
    trace_entryOf rfl,
    ⟨(mismatchFaults (m.pipeline.cycle + 1) c.pc mismatches ++
      clampFaults (m.pipeline.cycle + 1) c).reverse, ?_, hCycle, hBanks, ?_, ?_⟩, hNot,
    fun hKnown => (hKnown.stalled _ _).retired c⟩
  · simp [hOne]
  · rw [hOne, Coverage.kinds_retired, Coverage.kinds_stalled]
    rfl
  · rw [Coverage.hitsOf_retired, Coverage.hitsOf_stalled, hOne]
    simp only [List.flatMap_singleton, List.countP_singleton]
    by_cases hPath : path = .saturation <;> by_cases hClamp : c.saturated = true <;>
      simp [hPath, hClamp]
  · rw [hOne]
    simp [Hazard.Counters.note, bumpAll]
  · simp [Pipeline.faults]
  · rw [hClamped, hOne]
  · rw [hDecoded, hNone]
    rfl

/-- The end of a tick, whether it fails or not. -/
theorem commitPoint_counted (hRunning : m.pipeline.status = .running) {commit : Option Commit}
    {result : Except Failure Unit} (h : commitPoint m cur commit = (result, q)) :
    Counted m commit q ∧ q.commits = m.pipeline.commits ++ landing result commit := by
  rw [commitPoint_eq] at h
  cases commit with
  | none =>
      obtain ⟨rfl, rfl⟩ := Prod.mk.inj h
      exact ⟨.idle cur rfl hRunning, (List.append_nil _).symm⟩
  | some c =>
      dsimp only at h
      rw [writeBack_eq] at h
      by_cases hKind : c.ins.kind = .illegal
      · simp only [retire, hKind, if_true, finishWith, ending] at h
        obtain ⟨rfl, rfl⟩ := Prod.mk.inj h
        refine ⟨.illegal cur hKind rfl, ?_⟩
        simp [landing, retiring, hKind, closed, record, Pipeline.commits]
      · have hRetiring : retiring (some c) = [c] := by simp [retiring, hKind]
        unfold retire at h
        rw [if_neg hKind, count_eq] at h
        dsimp only at h
        rcases hCompare : compare _ c with ⟨compared, r⟩
        obtain ⟨mismatches, hIs⟩ := compare_rest hCompare
        rw [hCompare] at h
        cases compared with
        | error f =>
            obtain ⟨rfl, rfl⟩ := Prod.mk.inj h
            rw [hIs]
            refine ⟨.legal cur hKind mismatches rfl ?_, (List.append_nil _).symm⟩
            dsimp only [counted, closed]
            rw [hRunning]
            decide
        | ok u =>
            obtain ⟨rfl, rfl⟩ := Prod.mk.inj h
            rw [finishWith_eq, hIs]
            refine ⟨.legal cur hKind mismatches rfl ?_, ?_⟩
            · dsimp only [counted, closed]
              rcases after_cases hKind with ⟨-, -, hNext⟩ | ⟨-, -, -, hNext⟩
              · rw [hNext, hRunning]
                decide
              · rw [hNext]
                decide
            · simp [landing, hRetiring, counted, closed, Pipeline.commits]

end Pipeline

/-- A tick of a run, which retires or refuses the next instruction of the machine, if it commits
one. -/
structure Standing.Counts (a : Machine) (p : Pipeline) (m : Making) (commit : Option Commit) : Prop where
  staged : Staged p m.pipeline
  reported : Reported p m.stalls m.pipeline
  counted : Counted m commit p.tick.2
  commits : p.tick.2.commits = p.commits ++ landing p.tick.1 commit
  instruction : ∀ c, commit = some c → c.timeless = (Machine.after p.retired a).commit

/-- A tick of an unfinished pipeline adds to the books what its stages report. -/
theorem Standing.counts {a : Machine} {p : Pipeline} (h : Standing a p)
    (hRun : p.status.finished = false) : ∃ m commit, Standing.Counts a p m commit := by
  have hFollows := (h.live hRun).2
  obtain ⟨_, _, m₃, _, _, free₃, control, commit, hRound⟩ := hFollows.round hRun
  have hStaged := hRound.staged hFollows
  have hPoint : commitPoint (madeFetch m₃ p.slots.fetch free₃ control) p.slots commit =
      (p.tick.1, p.tick.2) := hRound.tick_eq.symm
  obtain ⟨hCounted, hCommits⟩ := commitPoint_counted hStaged.running hPoint
  refine ⟨_, commit, hStaged, hRound.reported hFollows, hCounted, ?_, fun c hIs => ?_⟩
  · rw [hCommits, hStaged.commits]
  · have hCommitted := hRound.committed
    rw [hIs] at hCommitted
    obtain ⟨-, -, hSame⟩ := Option.map_eq_some_iff.mp hCommitted.symm
    exact hSame.symm

/-- What a tick retires is the next part of the history of the machine. -/
theorem Standing.Counts.history {a : Machine} {p : Pipeline} {m : Making} {commit : Option Commit}
    (h : Standing.Counts a p m commit) :
    a.history p.tick.2.retired = a.history p.retired ++ (retiring commit).map Commit.timeless := by
  rw [h.counted.retired, h.staged.retired]
  cases commit with
  | none => exact (List.append_nil _).symm
  | some c =>
      by_cases hKind : c.ins.kind = .illegal
      · simp [retiring, hKind]
      · have hSame := h.instruction c rfl
        simp [retiring, hKind, Machine.history_succ, hSame]

end AccelPipe

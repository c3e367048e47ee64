import AccelPipe.Proofs.Coverage
import AccelPipe.Proofs.Pipeline.Follows

/-! The end of a tick: the oldest instruction is written back and retired, and a run ends with an
instruction that ends it. -/
namespace AccelPipe

namespace Pipeline

/-- The comparison of a commit with a reference machine, if there is one. -/
def compared (reference : Option Reference) (c : Commit) :
    Except Failure (List Mismatch) × Option Reference :=
  match reference with
  | none => (.ok [], none)
  | some r => ((r.check c).1, some (r.check c).2)

/-! What is written down at the end of a tick. -/

theorem countStalls_eq (p : Pipeline) (stalls : List StallCause) :
    p.countStalls stalls = .ok
      { p with
        stalls := bumpAll p.stalls stalls, coverage := p.coverage.stalled stalls p.cycle } := by
  unfold countStalls bumpAll Coverage.stalled
  induction stalls generalizing p with
  | nil => rfl
  | cons cause rest ih =>
      rw [List.foldlM_cons, cover_eq, ok_bind]
      exact ih _

/-- The trace entry of a tick, if it is traced. -/
def entryOf (m : Making) (cur : Slots) (commit : Option Commit) : List TraceEntry :=
  if m.pipeline.config.trace then [⟨m.pipeline.cycle, cur, m.stalls, commit.map (·.pc), m.flushed⟩]
  else []

theorem traced_eq (p : Pipeline) (m : Making) (cur : Slots) (commit : Option Commit)
    (hPipeline : m.pipeline = p) :
    p.traced m cur commit = { p with traceLog := entryOf m cur commit ++ p.traceLog } := by
  unfold traced entryOf
  rw [hPipeline]
  split <;> rfl

/-- A tick before its commit: the stalls are counted, the new slots are current. -/
def closed (m : Making) (cur : Slots) (commit : Option Commit) : Pipeline :=
  { m.pipeline with
    slots := m.next, stalls := bumpAll m.pipeline.stalls m.stalls
    coverage := m.pipeline.coverage.stalled m.stalls m.pipeline.cycle
    traceLog := entryOf m cur commit ++ m.pipeline.traceLog }

/-- A result that was clamped is a fault. -/
def clampFaults (cycle : Nat) (c : Commit) : List Fault :=
  if c.saturated then
    [⟨.saturation, cycle, c.pc,
      c.ins.mnemonic.name ++ " clamped to " ++ Mismatch.optional Text.decimal c.value⟩]
  else []

/-- A pipeline in which an instruction has been counted. -/
def counted (p : Pipeline) (c : Commit) : Pipeline :=
  { p with
    retired := p.retired + 1, coverage := p.coverage.retired c
    forwards := p.forwards.note c.paths, faultLog := clampFaults p.cycle c ++ p.faultLog }

theorem count_eq (p : Pipeline) (c : Commit) : p.count c = .ok (p.counted c) := by
  unfold count counted Coverage.retired clampFaults
  rw [Coverage.commit_eq]
  dsimp only
  rw [ok_bind]
  split
  · rw [cover_eq]
    rfl
  · rfl

/-- The faults that differences from the reference machine are, the newest first. -/
def mismatchFaults (cycle : Nat) (pc : Int) (mismatches : List Mismatch) : List Fault :=
  (mismatches.map fun m => ⟨.correctness, cycle, pc, m.message⟩).reverse

theorem recordAll_eq (p : Pipeline) (pc : Int) (mismatches : List Mismatch) :
    mismatches.foldl (fun p m => p.record .correctness pc m.message) p =
      { p with faultLog := mismatchFaults p.cycle pc mismatches ++ p.faultLog } := by
  unfold mismatchFaults
  induction mismatches generalizing p with
  | nil => rfl
  | cons m rest ih =>
      rw [List.foldl_cons, ih]
      simp [record]

/-- Comparing a commit with the reference machine. -/
theorem compare_eq (p : Pipeline) (c : Commit) :
    match compared p.reference c with
    | (.ok mismatches, reference) =>
      p.compare c = (.ok (), { p with
        reference, faultLog := mismatchFaults p.cycle c.pc mismatches ++ p.faultLog })
    | (.error f, reference) => p.compare c = (.error f, { p with reference }) := by
  unfold compared compare
  cases hReference : p.reference with
  | none =>
      dsimp only
      rw [← hReference]
      rfl
  | some r =>
      dsimp only
      rcases hCheck : r.check c with ⟨result, r'⟩
      cases result with
      | error f => rfl
      | ok mismatches =>
          dsimp only
          rw [recordAll_eq]

/-! Grave faults. -/

/-- A value that was clamped is no grave fault. -/
theorem grave_clampFaults (cycle : Nat) (c : Commit) :
    (clampFaults cycle c).filter (fun f => f.kind == .correctness || f.kind == .decode) = [] := by
  unfold clampFaults
  split <;> rfl

/-- A difference from the reference machine is one. -/
theorem grave_mismatchFaults (cycle : Nat) (pc : Int) (mismatches : List Mismatch) :
    (mismatchFaults cycle pc mismatches).filter
        (fun f => f.kind == .correctness || f.kind == .decode) =
      mismatchFaults cycle pc mismatches := by
  refine List.filter_eq_self.mpr fun f hIn => ?_
  obtain ⟨m, -, rfl⟩ := List.mem_map.mp (List.mem_reverse.mp hIn)
  rfl

/-- The registers after a commit. -/
def written (registers : Registers) (c : Commit) : Registers :=
  match c.value with
  | some v => registers.write c.rd v
  | none => registers

theorem writeBack_eq (p : Pipeline) (c : Commit) :
    p.writeBack c = { p with registers := written p.registers c } := by
  unfold writeBack written
  cases c.value <;> rfl

theorem commitPoint_eq (m : Making) (cur : Slots) (commit : Option Commit) :
    commitPoint m cur commit =
      match commit with
      | none => (.ok (), { closed m cur none with cycle := (closed m cur none).cycle + 1 })
      | some c =>
        match Pipeline.retire
          { (closed m cur (some c)).writeBack c with
            cycle := ((closed m cur (some c)).writeBack c).cycle + 1 } c with
        | (.error f, p) => (.error f, p)
        | (.ok (), p) => (.ok (), p.finishWith c) := by
  unfold commitPoint
  dsimp only
  rw [traced_eq m.pipeline m cur commit rfl, countStalls_eq]
  cases commit <;> rfl

/-- A tick in which nothing is committed. -/
theorem commitPoint_idle (m : Making) (cur : Slots) :
    ∃ q, commitPoint m cur none = (.ok (), q) ∧
      q = { m.pipeline with
        slots := m.next, cycle := m.pipeline.cycle + 1
        stalls := bumpAll m.pipeline.stalls m.stalls, coverage := q.coverage
        traceLog := q.traceLog } ∧
      q.grave = m.pipeline.grave := by
  rw [commitPoint_eq]
  exact ⟨_, rfl, rfl, rfl⟩

/-- A tick in which an illegal instruction ends the run. -/
theorem commitPoint_illegal (m : Making) (cur : Slots) {c : Commit}
    (hKind : c.ins.kind = .illegal) :
    ∃ q f, commitPoint m cur (some c) = (.ok (), q) ∧
      q = { m.pipeline with
        slots := .bubbles, status := .illegalInstruction, cycle := m.pipeline.cycle + 1
        registers := written m.pipeline.registers c
        stalls := bumpAll m.pipeline.stalls m.stalls, coverage := q.coverage
        traceLog := q.traceLog, faultLog := q.faultLog } ∧
      q.grave = f :: m.pipeline.grave ∧ f.kind = .decode ∧ f.pc = c.pc := by
  rw [commitPoint_eq]
  dsimp only
  rw [writeBack_eq]
  unfold retire finishWith
  simp only [hKind, if_true, ending]
  refine ⟨_, ⟨.decode, m.pipeline.cycle + 1, c.pc, "illegal instruction " ++
    Text.hexAddress c.ins.word⟩, rfl, rfl, ?_, rfl, rfl⟩
  exact List.filter_cons_of_pos rfl

/-- How a run goes on with an instruction that is not illegal. -/
def statusAfter (kind : Kind) (status : RunStatus) : RunStatus := (ending kind).getD status

def slotsAfter (kind : Kind) (next : Slots) : Slots :=
  if (ending kind).isSome then .bubbles else next

theorem finishWith_eq (p : Pipeline) (c : Commit) :
    p.finishWith c =
      { p with
        slots := slotsAfter c.ins.kind p.slots, status := statusAfter c.ins.kind p.status } := by
  unfold finishWith slotsAfter statusAfter
  cases ending c.ins.kind <;> rfl

/-- A tick in which an instruction retires. Should the comparison fail, all but the log of commits is
as if it had not, and the run goes on. -/
theorem commitPoint_legal (m : Making) (cur : Slots) {c : Commit}
    (hKind : c.ins.kind ≠ .illegal) :
    match compared m.pipeline.reference c with
    | (.ok mismatches, reference) =>
      ∃ q, commitPoint m cur (some c) = (.ok (), q) ∧
        q = { m.pipeline with
          slots := slotsAfter c.ins.kind m.next
          status := statusAfter c.ins.kind m.pipeline.status
          cycle := m.pipeline.cycle + 1, registers := written m.pipeline.registers c
          stalls := bumpAll m.pipeline.stalls m.stalls, retired := m.pipeline.retired + 1
          commitLog := c :: m.pipeline.commitLog, reference
          coverage := q.coverage, forwards := q.forwards, traceLog := q.traceLog
          faultLog := q.faultLog } ∧
        q.grave = mismatchFaults (m.pipeline.cycle + 1) c.pc mismatches ++ m.pipeline.grave
    | (.error f, reference) =>
      ∃ q, commitPoint m cur (some c) = (.error f, q) ∧
        q = { m.pipeline with
          slots := m.next, cycle := m.pipeline.cycle + 1
          registers := written m.pipeline.registers c
          stalls := bumpAll m.pipeline.stalls m.stalls, retired := m.pipeline.retired + 1
          reference, coverage := q.coverage, forwards := q.forwards, traceLog := q.traceLog
          faultLog := q.faultLog } := by
  have hCompare := compare_eq
    (counted { m.pipeline with
      slots := m.next, stalls := bumpAll m.pipeline.stalls m.stalls
      coverage := m.pipeline.coverage.stalled m.stalls m.pipeline.cycle
      traceLog := entryOf m cur (some c) ++ m.pipeline.traceLog
      registers := written m.pipeline.registers c, cycle := m.pipeline.cycle + 1 } c) c
  rw [commitPoint_eq]
  dsimp only
  rw [writeBack_eq]
  unfold retire
  rw [if_neg hKind, count_eq]
  unfold counted at hCompare
  unfold counted closed
  dsimp only at hCompare ⊢
  rcases hCompared : compared m.pipeline.reference c with ⟨result, reference⟩
  rw [hCompared] at hCompare
  cases result with
  | error f =>
      dsimp only at hCompare ⊢
      rw [hCompare]
      exact ⟨_, rfl, rfl⟩
  | ok mismatches =>
      dsimp only at hCompare ⊢
      rw [hCompare]
      dsimp only
      rw [finishWith_eq]
      refine ⟨_, rfl, rfl, ?_⟩
      unfold grave
      dsimp only
      rw [List.filter_append, List.filter_append, grave_mismatchFaults, grave_clampFaults,
        List.nil_append]

end Pipeline

end AccelPipe

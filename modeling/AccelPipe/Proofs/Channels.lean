import AccelPipe.Proofs.CycleCount
import AccelPipe.Proofs.InOrder
import AccelPipe.Proofs.Pipeline.Logs

/-! A run is watched on many channels: its counters, its coverage, its faults, its trace and its
commits. They are written by different stages at different points of a tick, and they all tell the
same, but for the log of commits, which misses the commit of a tick that fails. -/
namespace AccelPipe

open Pipeline

namespace Pipeline

/-- The addresses of the illegal instructions that a run has come upon. -/
def illegalPcs (p : Pipeline) : List Int := (p.faults.filter (·.kind = .decode)).map (·.pc)

/-- The counters of a run are those of its coverage. -/
structure Covered (p : Pipeline) : Prop where
  kinds : tally p.coverage.kinds = p.retired
  stalls : ∀ cause, p.coverage.hitsOf (.stall cause) = countOf p.stalls cause
  flushes : p.coverage.hitsOf .branchFlush = p.flushes
  prefetched : p.coverage.hitsOf .prefetchHit = p.memory.prefetchHits
  forwards : ∀ path, p.coverage.hitsOf (.forward path) = countOf p.forwards path

/-- Faults that are found later come behind the earlier ones. -/
theorem ordered_append {early late : List Fault} {now later : Nat} (hNow : now ≤ later)
    (hOrdered : early.Pairwise fun f g => f.cycle ≤ g.cycle) (hLatest : ∀ f ∈ early, f.cycle ≤ now)
    (hLate : ∀ f ∈ late, f.cycle = later) :
    (early ++ late).Pairwise (fun f g => f.cycle ≤ g.cycle) ∧
      ∀ f ∈ early ++ late, f.cycle ≤ later := by
  refine ⟨List.pairwise_append.mpr ⟨hOrdered, ?_, fun f hF g hG => ?_⟩, fun f hHeld => ?_⟩
  · refine List.pairwise_of_forall_mem_list fun f hF g hG => ?_
    exact Nat.le_of_eq ((hLate f hF).trans (hLate g hG).symm)
  · rw [hLate g hG]
    exact Nat.le_trans (hLatest f hF) hNow
  · rcases List.mem_append.mp hHeld with hOld | hNew
    · exact Nat.le_trans (hLatest f hOld) hNow
    · exact Nat.le_of_eq (hLate f hNew)

/-- The faults of a run are those that its counters tell of, in order. -/
structure Faulted (p : Pipeline) : Prop where
  bankConflicts : (p.faultsOf .bankConflict : Int) = countOf p.stalls .bankConflict
  /-- A burst that is blocked once may be blocked by many banks. -/
  conflicts : p.faultsOf .bankConflict ≤ p.memory.conflicts
  saturations : p.faultsOf .saturation = p.coverage.hitsOf .saturation
  ordered : p.faults.Pairwise fun f g => f.cycle ≤ g.cycle
  latest : ∀ f ∈ p.faults, f.cycle ≤ p.cycle

/-- The trace of a run has an entry for every cycle, with its stalls and with what has retired in it. -/
structure Traced (p : Pipeline) : Prop where
  on : p.config.trace = true
  entries : p.trace.length = p.cycle
  waits : ∀ cause, ((p.trace.flatMap (·.stalls)).count cause : Int) = countOf p.stalls cause
  retired : (p.trace.filterMap (·.committed)).length = p.retired + p.illegalPcs.length
  /-- Behind all commits comes the illegal instruction that has ended the run. -/
  committed : (p.commits.map (·.pc) ++ p.illegalPcs).Sublist (p.trace.filterMap (·.committed))
  illegal : p.illegalPcs.length = if p.status = .illegalInstruction then 1 else 0
  undecodable : ∀ pc ∈ p.illegalPcs, (Instruction.decode (p.program.fetch pc)).kind = .illegal

/-- The records of a run that do not tell of the log of commits agree. -/
structure Recorded (p : Pipeline) : Prop extends Covered p, Faulted p, Traced p

/-! One tick, from the state `p` over the state `m` that its stages leave behind to the state
`q`. -/

section Tick

variable {p q : Pipeline} {m : Making} {commit : Option Commit}

/-- What a tick adds to a counter, it adds to the coverage as well. -/
theorem Covered.tick (h : p.Covered) (hStaged : Staged p m.pipeline)
    (hReported : Reported p m.stalls m.pipeline) (hCounted : Counted m commit q) : q.Covered := by
  refine ⟨?_, fun cause => ?_, ?_, ?_, fun path => ?_⟩
  · rw [hCounted.kinds, hCounted.retired, tally_bumpAll, hReported.kinds, h.kinds, hStaged.retired]
    simp
  · rw [hCounted.hits, hCounted.stalls, countOf_bumpAll, hStaged.stalls,
      hReported.paths (.stall cause) (by simp) (by simp), h.stalls]
    simp [List.count_eq_countP]
    rfl
  · have hFlushes := hReported.flushes
    have hBefore := h.flushes
    rw [hCounted.hits, hCounted.flushes]
    simp
    omega
  · have hPrefetched := hReported.prefetched
    have hBefore := h.prefetched
    rw [hCounted.hits, hCounted.memory]
    simp
    omega
  · rw [hCounted.hits, hCounted.forwards, countOf_bumpAll, hStaged.forwards,
      hReported.paths (.forward path) (by simp) (by simp), h.forwards]
    simp [List.count_eq_countP]
    rfl

/-- What a tick adds to the clamped results is the one that it retires. -/
theorem Counted.clamped (hReported : Reported p m.stalls m.pipeline) (hCounted : Counted m commit q) :
    q.coverage.hitsOf .saturation =
      p.coverage.hitsOf .saturation + (retiring commit).countP (·.saturated) := by
  rw [hCounted.hits, hReported.paths .saturation (by decide) (by decide)]
  simp

/-- A tick puts down the faults of its cycle, which is not before any on record. -/
theorem Faulted.tick (h : p.Faulted) (hStaged : Staged p m.pipeline)
    (hReported : Reported p m.stalls m.pipeline) (hCounted : Counted m commit q) : q.Faulted := by
  obtain ⟨log, hLog, hLogOf, hLength, hConflicts⟩ := hReported.faults
  obtain ⟨log', hLog', hCycle', hNone, hSaturated, -⟩ := hCounted.faults
  have hBanks : log.countP (·.kind = .bankConflict) = log.length :=
    List.countP_eq_length.mpr fun f hHeld => by simp [(hLogOf f hHeld).1]
  have hClean : log.countP (·.kind = .saturation) = 0 :=
    countP_kind fun f hHeld => by rw [(hLogOf f hHeld).1]; nofun
  have hCount : ∀ kind, q.faultsOf kind =
      p.faultsOf kind + log.countP (·.kind = kind) + log'.countP (·.kind = kind) := fun kind => by
    rw [faultsOf_append hLog', faultsOf_append hLog]
  -- the stages put down the faults of the cycle that they begin in, the end those of the next one
  obtain ⟨hOrdered, hLatest⟩ := ordered_append (Nat.le_refl _) h.ordered h.latest
    fun f hHeld => (hLogOf f hHeld).2
  obtain ⟨hOrdered', hLatest'⟩ := ordered_append (Nat.le_succ _) hOrdered hLatest
    fun f hHeld => by rw [hCycle' f hHeld, hReported.cycle]
  rw [← hLog, ← hLog'] at hOrdered' hLatest'
  refine ⟨?_, ?_, ?_, hOrdered', ?_⟩
  · have hBefore := h.bankConflicts
    rw [hCount, hBanks, hNone, hCounted.stalls, countOf_bumpAll, hStaged.stalls]
    omega
  · have hBefore := h.conflicts
    rw [hCount, hBanks, hNone, hCounted.memory]
    omega
  · rw [hCount, hClean, hSaturated, hCounted.clamped hReported, ← h.saturations, Nat.add_zero]
    rfl
  · rw [hCounted.cycle, hReported.cycle]
    exact hLatest'

/-- A tick adds one entry to the trace. If its comparison fails, the entry still names what has
retired. -/
theorem Traced.tick (h : p.Traced) {result : Except Failure Unit} (hStaged : Staged p m.pipeline)
    (hReported : Reported p m.stalls m.pipeline) (hCounted : Counted m commit q)
    (hCommits : q.commits = p.commits ++ landing result commit) (hRun : p.status.finished = false)
    (hCommit : ∀ c, commit = some c → c.ins = Instruction.decode (p.program.fetch c.pc)) :
    q.Traced := by
  obtain ⟨entry, hEntry, hWaits, hCommitted⟩ := hCounted.trace (by rw [hStaged.config]; exact h.on)
  obtain ⟨log, hLog, hLogOf, -, -⟩ := hReported.faults
  obtain ⟨log', hLog', -, -, -, hIllegal⟩ := hCounted.faults
  have hOpen : p.illegalPcs = [] := by
    refine List.eq_nil_of_length_eq_zero ?_
    rw [h.illegal, if_neg]
    intro hEnd
    rw [hEnd] at hRun
    cases hRun
  have hClean : log.filter (·.kind = .decode) = [] :=
    filter_kind fun f hHeld => by rw [(hLogOf f hHeld).1]; nofun
  have hPcs : q.illegalPcs = (refused commit).map (·.pc) := by
    have hNone := hOpen
    unfold illegalPcs at hNone ⊢
    rw [hLog', hLog, List.filter_append, List.filter_append, hClean, List.map_append,
      List.map_append, hNone, hIllegal]
    rfl
  have hNow : q.trace.filterMap (·.committed) = p.trace.filterMap (·.committed) ++
      ((retiring commit).map (·.pc) ++ (refused commit).map (·.pc)) := by
    have hOne : [entry].filterMap (·.committed) = entry.committed.toList := by
      cases hIs : entry.committed <;> simp [hIs]
    rw [hEntry, hStaged.trace, List.filterMap_append, hOne, hCommitted, retiring_refused]
  have hRetired := h.retired
  have hBefore := h.committed
  rw [hOpen, List.length_nil, Nat.add_zero] at hRetired
  rw [hOpen, List.append_nil] at hBefore
  refine ⟨?_, ?_, fun cause => ?_, ?_, ?_, ?_, fun pc hHeld => ?_⟩
  · rw [hCounted.config, hStaged.config]
    exact h.on
  · rw [hEntry, hStaged.trace, List.length_append, h.entries, hCounted.cycle, hReported.cycle]
    rfl
  · rw [hEntry, hStaged.trace, List.flatMap_append, List.count_append, hCounted.stalls,
      countOf_bumpAll, hStaged.stalls, List.flatMap_singleton, hWaits, Int.natCast_add, h.waits]
  · rw [hNow, List.length_append, List.length_append, List.length_map, hRetired, hPcs,
      hCounted.retired, hStaged.retired, Nat.add_assoc]
  · rw [hNow, hCommits, hPcs, List.map_append, List.append_assoc]
    exact hBefore.append (((landing_sublist result commit).map _).append_right _)
  · rw [hPcs, List.length_map, refused_length]
    simp only [hCounted.status]
  · rw [hPcs] at hHeld
    obtain ⟨c, hRefused, rfl⟩ := List.mem_map.mp hHeld
    obtain ⟨hIs, hKind⟩ := List.mem_filter.mp hRefused
    rw [hCounted.program, hStaged.program, ← hCommit c (Option.mem_toList.mp hIs)]
    exact of_decide_eq_true hKind

end Tick

namespace Recorded

variable {a : Machine} {p q : Pipeline}

/-- A tick keeps the records together, also one whose comparison fails. -/
theorem tick (h : p.Recorded) (hStanding : Standing a p) (hRun : p.status.finished = false) :
    p.tick.2.Recorded := by
  obtain ⟨m, commit, hCounts⟩ := hStanding.counts hRun
  have hStaged := hCounts.staged
  have hReported := hCounts.reported
  have hCounted := hCounts.counted
  have hCommit : ∀ c, commit = some c → c.ins = Instruction.decode (p.program.fetch c.pc) := by
    intro c hIs
    have hSame := hCounts.instruction c hIs
    have hIns : c.ins = (Machine.after p.retired a).instruction := congrArg Commit.ins hSame
    have hPc : c.pc = (Machine.after p.retired a).pc := congrArg Commit.pc hSame
    rw [hIns, hPc, (hStanding.live hRun).2.program]
    rfl
  exact ⟨h.toCovered.tick hStaged hReported hCounted, h.toFaulted.tick hStaged hReported hCounted,
    h.toTraced.tick hStaged hReported hCounted hCounts.commits hRun hCommit⟩

/-- Differences from the reference machine and the end of the time are no more than faults. -/
theorem append (h : p.Recorded) (log : List Fault)
    (hRest : q = { p with status := q.status, faultLog := log ++ p.faultLog })
    (hLog : ∀ f ∈ log, (f.kind = .correctness ∨ f.kind = .timeout) ∧ f.cycle = p.cycle)
    (hStatus : q.status = .illegalInstruction ↔ p.status = .illegalInstruction) : q.Recorded := by
  have hFaults : q.faults = p.faults ++ log.reverse := by
    rw [hRest]
    exact List.reverse_append
  have hOther : ∀ f ∈ log.reverse,
      (f.kind ≠ .bankConflict ∧ f.kind ≠ .saturation ∧ f.kind ≠ .decode) ∧ f.cycle = p.cycle := by
    intro f hHeld
    obtain ⟨hKind | hKind, hCycle⟩ := hLog f (List.mem_reverse.mp hHeld) <;>
      exact ⟨by rw [hKind]; exact ⟨nofun, nofun, nofun⟩, hCycle⟩
  have hCount : ∀ kind, (∀ f ∈ log.reverse, f.kind ≠ kind) →
      q.faultsOf kind = p.faultsOf kind := fun kind hNot => by
    rw [faultsOf_append hFaults, countP_kind hNot, Nat.add_zero]
  have hPcs : q.illegalPcs = p.illegalPcs := by
    unfold illegalPcs
    rw [hFaults, List.filter_append, filter_kind fun f hHeld => (hOther f hHeld).1.2.2,
      List.append_nil]
  have hBanks := hCount .bankConflict fun f hHeld => (hOther f hHeld).1.1
  have hClamped := hCount .saturation fun f hHeld => (hOther f hHeld).1.2.1
  obtain ⟨hOrdered, hLatest⟩ := ordered_append (Nat.le_refl _) h.ordered h.latest
    fun f hHeld => (hOther f hHeld).2
  rw [← hFaults] at hOrdered hLatest
  refine ⟨?_, ⟨?_, ?_, ?_, hOrdered, ?_⟩, ⟨?_, ?_, ?_, ?_, ?_, ?_, ?_⟩⟩
  · rw [hRest]
    exact ⟨h.kinds, h.stalls, h.flushes, h.prefetched, h.forwards⟩
  · rw [hBanks, h.bankConflicts, hRest]
  · rw [hBanks, hRest]
    exact h.conflicts
  · rw [hClamped, h.saturations, hRest]
  · rw [show q.cycle = p.cycle by rw [hRest]]
    exact hLatest
  · rw [hRest]
    exact h.on
  · rw [hRest]
    exact h.entries
  · rw [hRest]
    exact h.waits
  · rw [hPcs, hRest]
    exact h.retired
  · rw [hPcs, hRest]
    exact h.committed
  · rw [hPcs, h.illegal]
    simp only [hStatus]
  · rw [hPcs, hRest]
    exact h.undecodable

/-- The end of the time is a fault, no more. -/
theorem timeout (h : p.Recorded) (hRun : p.status.finished = false) : p.timeout.Recorded := by
  refine h.append [⟨.timeout, p.cycle, p.pc.getD 0, _⟩] rfl ?_ ?_
  · intro f hHeld
    rw [List.mem_singleton.mp hHeld]
    exact ⟨.inr rfl, rfl⟩
  · refine ⟨nofun, fun hEnd => ?_⟩
    rw [hEnd] at hRun
    cases hRun

/-- The differences at the end are faults, no more. -/
theorem differing (h : p.Recorded) (mismatches : List Mismatch) :
    (p.differing mismatches).Recorded := by
  refine h.append _ rfl (fun f hHeld => ?_) Iff.rfl
  obtain ⟨hKind, hCycle⟩ := mismatchFaults_spec hHeld
  exact ⟨.inl hKind, hCycle⟩

/-- A loaded simulator has nothing on record. -/
theorem build {c : Config} (hTrace : c.trace = true) (program : Image)
    (data : List (Int × List Int)) : (Simulator.build c program data).Recorded := by
  have hHits : ((Memory.fresh c).loadAll data).prefetchHits = 0 :=
    Memory.prefetchHits_loadAll _ data
  have hNone : ∀ path, ({} : Coverage).hitsOf path = 0 := by
    intro path
    cases path with
    | forward path => cases path <;> rfl
    | stall cause => cases cause <;> rfl
    | _ => rfl
  have hForwards : ∀ path, countOf Hazard.Counters.fresh path = 0 := by
    intro path
    cases path <;> rfl
  rw [Simulator.build_eq]
  refine ⟨⟨rfl, fun cause => hNone _, hNone _, ?_, fun path => ?_⟩,
    ⟨rfl, Nat.zero_le _, rfl, .nil, nofun⟩, ⟨hTrace, rfl, fun _ => rfl, rfl, .slnil, rfl, nofun⟩⟩
  · exact (hNone _).trans (congrArg Int.ofNat hHits.symm)
  · exact (hNone _).trans (hForwards path).symm

end Recorded

end Pipeline

/-- At the end of a run every clamped operation of a unit has retired. -/
theorem Standing.saturations {a : Machine} {p : Pipeline} (h : Standing a p) (hSound : a.Sound)
    (hEnd : p.status = .exited ∨ p.status = .illegalInstruction) :
    p.units.saturations = a.units.saturations + (a.history p.retired).countP (·.saturated) := by
  cases h with
  | underWay _ _ hOpen =>
      rcases hEnd with hEnd | hEnd <;> rw [hEnd] at hOpen <;> rcases hOpen with hNot | hNot <;>
        cases hNot
  | ended _ _ hUnits => rw [hUnits, Machine.after_saturations hSound]

/-- The clamped results that the coverage counts are those in the history of the machine. -/
def Clamped (a : Machine) (p : Pipeline) : Prop :=
  p.coverage.hitsOf .saturation = (a.history p.retired).countP (·.saturated)

/-- A tick covers a clamped result if the instruction that retires has one. -/
theorem Clamped.tick {a : Machine} {p : Pipeline} (h : Clamped a p) (hStanding : Standing a p)
    (hRun : p.status.finished = false) : Clamped a p.tick.2 := by
  obtain ⟨m, commit, hCounts⟩ := hStanding.counts hRun
  unfold Clamped at h ⊢
  rw [hCounts.counted.clamped hCounts.reported, hCounts.history, List.countP_append,
    List.countP_map, h]
  rfl

/-- All channels of a traced run agree, those aside that tell of the log of commits. -/
structure Pipeline.Watched (p : Pipeline) : Prop extends p.Recorded where
  /-- The units count what they clamp when they start it, the coverage when it retires. -/
  unitSaturations : p.status = .exited ∨ p.status = .illegalInstruction →
    (p.units.saturations : Int) = p.coverage.hitsOf .saturation

/-- All channels of a traced run agree. -/
structure Pipeline.Consistent (p : Pipeline) : Prop extends p.Watched where
  logged : p.commits.length = p.retired
  clamped : p.coverage.hitsOf .saturation = p.commits.countP (·.saturated)
  /-- Behind all commits comes the illegal instruction that has ended the run. -/
  traced : p.trace.filterMap (·.committed) = p.commits.map (·.pc) ++ p.illegalPcs

/-- With a commit in the log for every instruction that has retired, the log agrees with all other
channels. -/
theorem Pipeline.Watched.consistent {a : Machine} {p : Pipeline} (h : p.Watched) (hPosted : Posted a p)
    (hClamped : Clamped a p) (hNone : p.unlogged = 0) : p.Consistent := by
  have hHistory := hPosted.complete hNone
  have hLogged : p.commits.length = p.retired := by
    rw [← Machine.length_history a p.retired, ← hHistory, List.length_map]
  refine ⟨h, hLogged, ?_, (h.committed.eq_of_length ?_).symm⟩
  · rw [hClamped, ← hHistory, List.countP_map]
    rfl
  · rw [h.retired, List.length_append, List.length_map, hLogged]

namespace Simulator

variable {c : Config} {program : Image} {data : List (Int × List Int)} {k : Nat}

/-- Every tick keeps the records together, the failing ones included. -/
theorem ticks_recorded (hValid : c.Valid) (hTrace : c.trace = true) (k : Nat) :
    ((loaded c program data).ticks k).pipeline.Recorded :=
  ticks_keep hValid (.build hTrace program data) (fun _ hStanding hRun h => h.tick hStanding hRun)
    (fun _ hRun h => h.timeout hRun) (fun _ mismatches h => h.differing mismatches) k

/-- Every tick keeps the clamped results counted, the failing ones included. -/
theorem ticks_clamped (hValid : c.Valid) (k : Nat) :
    Clamped (c.machine program data) ((loaded c program data).ticks k).pipeline := by
  refine ticks_keep hValid ?_ (fun _ hStanding hRun h => h.tick hStanding hRun) (fun _ _ h => h)
    (fun _ _ h => h) k
  rw [build_eq]
  rfl

/-- In every state that the ticks of a traced run lead to, all channels on which it is watched tell
the same, but for the log of commits. That is complete, and agrees with the others, exactly if no
tick has failed, which is so while the windows stay in the numbers of 64 bits. -/
theorem ticks_consistent (hValid : c.Valid) (hTrace : c.trace = true) (program : Image)
    (data : List (Int × List Int)) (k : Nat) :
    let p := ((loaded c program data).ticks k).pipeline
    p.Watched ∧ (p.Consistent ↔ (loaded c program data).Intact k) ∧
      (program.size < 0x40000000 →
        (c.checkReference = true → (c.reference program data).Exact k) → p.Consistent) := by
  intro p
  have hClamped : Clamped (c.machine program data) p := ticks_clamped hValid k
  have hWatched : p.Watched := by
    refine ⟨ticks_recorded hValid hTrace k, fun hEnd => ?_⟩
    have hUnused : (c.machine program data).units.saturations = 0 := rfl
    rw [(ticks_standing hValid k).saturations (hValid.sound_machine program data) hEnd, hUnused,
      Nat.zero_add, hClamped]
  have hExactly : p.Consistent ↔ (loaded c program data).Intact k := by
    rw [intact_iff hValid]
    refine ⟨fun h => ?_, hWatched.consistent (ticks_posted hValid k) hClamped⟩
    unfold unlogged
    rw [show _ = _ from h.logged, Nat.sub_self]
  exact ⟨hWatched, hExactly, fun hSize hExact =>
    hExactly.mpr (intact_of_exact hValid hSize hExact)⟩

/-- A run with a clamped sum and a load that has to wait for a bank, which ends with a word that is
no instruction. -/
theorem ticks_consistent_of_clamped_sum :
    ((loaded { Config.small with memLatency := 6 }
        #[0x800000b7, 0xfff08093, 0x00100113, 0x0021008c, 0x0020030f, 0x00002183, 0x003181b3, 0]
        []).ticks 22).pipeline.faults.map (·.kind) = [.saturation, .bankConflict, .decode] ∧
      ((loaded { Config.small with memLatency := 6 }
        #[0x800000b7, 0xfff08093, 0x00100113, 0x0021008c, 0x0020030f, 0x00002183, 0x003181b3, 0]
        []).ticks 22).pipeline.Consistent := by
  have hValid : ({ Config.small with memLatency := 6 } : Config).Valid := by
    constructor <;> decide
  exact ⟨by decide +kernel, (ticks_consistent hValid rfl _ _ 22).2.2 (by decide)
    (fun _ => hValid.exact _ _ (by decide))⟩

/-- After the tick that has failed, two instructions have retired, but there is one commit. -/
theorem not_ticks_consistent_of_leaping :
    ¬ ∀ (c : Config) (program : Image) (data : List (Int × List Int)) (k : Nat), c.Valid →
      c.trace = true → program.size < 0x40000000 →
        ((loaded c program data).ticks k).pipeline.Consistent := by
  intro h
  have hLogged := (h { Config.small with poolStride := 0x8000000000000000 }
    #[0x200008f, 0x200010f, 0x73] [] 12 (by constructor <;> decide) rfl (by decide)).logged
  revert hLogged
  decide +kernel

end Simulator

end AccelPipe

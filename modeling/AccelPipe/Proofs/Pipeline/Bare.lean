import AccelPipe.Proofs.Pipeline.Commits

/-! What only watches a run: trace, coverage, faults, forwarding counters and the reference machine.
Two pipelines that differ in nothing else stay so tick after tick. -/
namespace AccelPipe

/-- Computations with results that look alike, followed by computations that keep them so. -/
theorem map_bind_congr {ε α α' β β' : Type} {f : α → α'} {k : β → β'} {x y : Except ε α}
    {g g' : α → Except ε β} (h : x.map f = y.map f)
    (hNext : ∀ a b, f a = f b → (g a).map k = (g' b).map k) :
    (x >>= g).map k = (y >>= g').map k := by
  cases x with
  | error e =>
      cases y with
      | error e' =>
          cases h
          rfl
      | ok b => cases h
  | ok a =>
      cases y with
      | error e' => cases h
      | ok b => exact hNext a b (Except.ok.inj h)

/-- One computation, followed by computations with results that look alike. -/
theorem bind_map_congr {ε α β β' : Type} {k : β → β'} (x : Except ε α) {g g' : α → Except ε β}
    (hNext : ∀ a, (g a).map k = (g' a).map k) : (x >>= g).map k = (x >>= g').map k := by
  cases x with
  | error e => rfl
  | ok a => exact hNext a

namespace Pipeline

/-- A pipeline without what watches it. -/
def bare (p : Pipeline) : Pipeline :=
  { p with
    config := {}, coverage := {}, reference := none, forwards := [], faultLog := [], traceLog := [] }

end Pipeline

def StageStep.bare (step : StageStep) : StageStep := { step with pipeline := step.pipeline.bare }

/-- Steps of a stage that are alike differ in what is only watched. -/
theorem StageStep.bare_eq {step step' : StageStep} (h : step.bare = step'.bare) :
    step.pipeline.bare = step'.pipeline.bare ∧ step.slot = step'.slot ∧ step.done = step'.done ∧
      step.stalls = step'.stalls := by
  simpa only [StageStep.bare, StageStep.mk.injEq] using h

namespace Pipeline

def Making.bare (m : Making) : Making := { m with pipeline := m.pipeline.bare }

variable {p q : Pipeline}

/-- Pipelines that are alike are the same but for the configuration, the reference machine and what
is only watched. -/
theorem exists_of_bare (h : p.bare = q.bare) :
    ∃ config coverage reference forwards faultLog traceLog,
      q = { p with config, coverage, reference, forwards, faultLog, traceLog } := by
  refine ⟨q.config, q.coverage, q.reference, q.forwards, q.faultLog, q.traceLog, ?_⟩
  obtain ⟨⟩ := p
  obtain ⟨⟩ := q
  simp only [bare, Pipeline.mk.injEq] at h ⊢
  simp only [h, and_self]

theorem bare_eq (h : p.bare = q.bare) :
    q.units = p.units ∧ q.memory = p.memory ∧ q.cycle = p.cycle ∧ q.status = p.status ∧
      q.slots = p.slots := by
  obtain ⟨_, _, _, _, _, _, rfl⟩ := exists_of_bare h
  exact ⟨rfl, rfl, rfl, rfl, rfl⟩

/-- Completing an access does not depend on what is only watched. -/
theorem completeAccess_bare (h : p.bare = q.bare) (s : Slot) (addr : Int) (isLoad : Bool) :
    (p.completeAccess s addr isLoad).map StageStep.bare =
      (q.completeAccess s addr isLoad).map StageStep.bare := by
  obtain ⟨_, _, _, _, _, _, rfl⟩ := exists_of_bare h
  unfold completeAccess
  cases isLoad with
  | true => rfl
  | false => cases s.storeValue <;> rfl

theorem continueAccess_bare (h : p.bare = q.bare) (s : Slot) (addr : Int) (isLoad : Bool) :
    (p.continueAccess s addr isLoad).map StageStep.bare =
      (q.continueAccess s addr isLoad).map StageStep.bare := by
  unfold continueAccess
  dsimp only
  split
  · exact congrArg (fun r => Except.ok (StageStep.mk r _ _ _)) h
  · exact completeAccess_bare h _ _ _

/-- Nor does beginning one, -/
theorem begunAccess_bare (h : p.bare = q.bare) (addr : Int) (isLoad : Bool) :
    (p.begunAccess addr isLoad).1 = (q.begunAccess addr isLoad).1 ∧
      (p.begunAccess addr isLoad).2.bare = (q.begunAccess addr isLoad).2.bare := by
  obtain ⟨_, _, _, _, _, _, rfl⟩ := exists_of_bare h
  unfold begunAccess
  dsimp only
  split <;> exact ⟨rfl, rfl⟩

/-- the stage of Memory, -/
theorem memoryStage_bare (h : p.bare = q.bare) (s : Slot) :
    (p.memoryStage s).map StageStep.bare = (q.memoryStage s).map StageStep.bare := by
  unfold memoryStage
  refine bind_map_congr _ fun ins => ?_
  dsimp only
  split
  · exact congrArg (fun r => Except.ok (StageStep.mk r _ _ _)) h
  · cases s.memAddr with
    | none => rfl
    | some addr =>
        dsimp only
        split
        · exact continueAccess_bare h s addr _
        · rw [beginAccess_eq, beginAccess_eq, ok_bind, ok_bind]
          obtain ⟨hTicks, hAfter⟩ := begunAccess_bare h addr (ins.kind == .load)
          rcases hBegin : p.begunAccess addr (ins.kind == .load) with ⟨ticks, p'⟩
          rcases hBegin' : q.begunAccess addr (ins.kind == .load) with ⟨ticks', q'⟩
          rw [hBegin, hBegin'] at hTicks hAfter
          obtain rfl : ticks = ticks' := hTicks
          cases ticks with
          | none =>
              obtain ⟨_, _, _, _, _, _, rfl⟩ := exists_of_bare hAfter
              rfl
          | some ticks => exact continueAccess_bare hAfter _ addr _

/-- an accelerator, -/
theorem issueAccelerator_bare (h : p.bare = q.bare) (s : Slot) (ins : Instruction)
    (acc : Accelerator) (mem : Option Slot) :
    (p.issueAccelerator s ins acc mem).map StageStep.bare =
      (q.issueAccelerator s ins acc mem).map StageStep.bare := by
  obtain ⟨hUnits, hMemory, hCycle, -, -⟩ := bare_eq h
  have hBurst : q.burst acc ins s.operands = p.burst acc ins s.operands := by
    unfold burst
    rw [hUnits, hMemory, hCycle]
  rw [issueAccelerator_eq, issueAccelerator_eq, hBurst, hUnits]
  obtain ⟨_, _, _, _, _, _, rfl⟩ := exists_of_bare h
  refine bind_map_congr _ fun ahead => ?_
  split
  · rfl
  · split
    · rfl
    · exact bind_map_congr _ fun r => rfl

/-- an issue, -/
theorem issue_bare (h : p.bare = q.bare) (s : Slot) (ins : Instruction) (mem : Option Slot) :
    (p.issue s ins mem).map StageStep.bare = (q.issue s ins mem).map StageStep.bare := by
  have hStarted : ∀ t : Slot, (Except.ok (StageStep.mk p t true []) : Except Failure _).map
      StageStep.bare = (Except.ok (StageStep.mk q t true [])).map StageStep.bare :=
    fun t => congrArg (fun r => Except.ok (StageStep.mk r t true [])) h
  unfold issue
  split
  · refine bind_map_congr _ fun value => ?_
    exact hStarted _
  · refine bind_map_congr _ fun value => ?_
    exact hStarted _
  · refine bind_map_congr _ fun base => ?_
    exact hStarted _
  · refine bind_map_congr _ fun base => ?_
    refine bind_map_congr _ fun value => ?_
    exact hStarted _
  · split
    · exact issueAccelerator_bare h _ _ _ _
    · exact hStarted _

/-- the stage of Execute, -/
theorem executeStage_bare (h : p.bare = q.bare) (s : Slot) (mem wb : Option Slot) :
    (p.executeStage s mem wb).map StageStep.bare =
      (q.executeStage s mem wb).map StageStep.bare := by
  unfold executeStage
  split
  · exact congrArg (fun r => Except.ok (StageStep.mk r _ _ _)) h
  · refine bind_map_congr _ fun ins => ?_
    dsimp only
    split
    · exact congrArg (fun r => Except.ok (StageStep.mk r _ _ _)) h
    · refine map_bind_congr (issue_bare h _ _ _) ?_
      intro step step' hStep
      obtain ⟨hAfter, hSlot, hDone, hStalls⟩ := StageStep.bare_eq hStep
      rw [hDone]
      split
      · rw [hSlot, hStalls]
        exact congrArg (fun r => Except.ok (StageStep.mk r _ _ _)) hAfter
      · exact congrArg Except.ok hStep

/-- a commit, -/
theorem commitOf_bare (h : p.bare = q.bare) (s : Slot) : p.commitOf s = q.commitOf s := by
  obtain ⟨_, _, _, _, _, _, rfl⟩ := exists_of_bare h
  rfl

/-- or what Decode makes of its slot. -/
theorem decodeStage_bare (h : p.bare = q.bare) (s : Slot) (cur : Slots) (memoryFree : Bool) :
    p.decodeStage s cur memoryFree = q.decodeStage s cur memoryFree := by
  obtain ⟨_, _, _, _, _, _, rfl⟩ := exists_of_bare h
  rfl

/-! The stages of a tick. -/

variable {m m' : Making}

theorem Making.bare_eq (h : m.bare = m'.bare) :
    m.pipeline.bare = m'.pipeline.bare ∧ m.next = m'.next ∧ m.stalls = m'.stalls ∧
      m.flushed = m'.flushed := by
  simpa only [Making.bare, Making.mk.injEq] using h

theorem Making.bare_congr (hPipeline : p.bare = q.bare) (next : Slots) (stalls : List StallCause)
    (flushed : Bool) :
    Making.bare ⟨p, next, stalls, flushed⟩ = Making.bare ⟨q, next, stalls, flushed⟩ :=
  congrArg (fun r => Making.mk r next stalls flushed) hPipeline

/-- Pipelines that are alike stay so behind Memory, -/
theorem makeMemory_bare (h : p.bare = q.bare) (slot : Option Slot) :
    (makeMemory { pipeline := p } slot).map (fun r => (r.1.bare, r.2)) =
      (makeMemory { pipeline := q } slot).map (fun r => (r.1.bare, r.2)) := by
  unfold makeMemory
  cases slot with
  | none => exact congrArg (fun m => Except.ok (m, true)) (Making.bare_congr h _ _ _)
  | some s =>
      refine map_bind_congr (memoryStage_bare h s) ?_
      intro step step' hStep
      obtain ⟨hAfter, hSlot, hDone, hStalls⟩ := StageStep.bare_eq hStep
      dsimp only
      rw [hSlot, hDone, hStalls]
      exact congrArg (fun m => Except.ok (m, _)) (Making.bare_congr hAfter _ _ _)

/-- behind Execute, -/
theorem makeExecute_bare (h : m.bare = m'.bare) (cur : Slots) (memoryFree : Bool) :
    (makeExecute m cur memoryFree).map (fun r => (r.1.bare, r.2)) =
      (makeExecute m' cur memoryFree).map (fun r => (r.1.bare, r.2)) := by
  obtain ⟨hPipeline, hNext, hStalls, hFlushed⟩ := Making.bare_eq h
  unfold makeExecute
  cases cur.execute with
  | none => exact congrArg (fun m => Except.ok (m, true, Control.goOn)) h
  | some s =>
      refine map_bind_congr (executeStage_bare hPipeline s cur.memory cur.writeback) ?_
      intro step step' hStep
      obtain ⟨hAfter, hSlot, hDone, hCauses⟩ := StageStep.bare_eq hStep
      dsimp only
      rw [hNext, hStalls, hFlushed, hSlot, hDone, hCauses]
      exact congrArg (fun m => Except.ok (m, _)) (Making.bare_congr hAfter _ _ _)

/-- behind Decode, -/
theorem makeDecode_bare (h : m.bare = m'.bare) (cur : Slots) (memoryFree executeFree : Bool)
    (control : Control) :
    (makeDecode m cur memoryFree executeFree control).map (fun r => (r.1.bare, r.2)) =
      (makeDecode m' cur memoryFree executeFree control).map (fun r => (r.1.bare, r.2)) := by
  obtain ⟨hPipeline, hNext, hStalls, hFlushed⟩ := Making.bare_eq h
  have hStays : ∀ next stalls flushed,
      Making.bare ⟨m.pipeline, next, stalls, flushed⟩ =
        Making.bare ⟨m'.pipeline, next, stalls, flushed⟩ :=
    Making.bare_congr hPipeline
  unfold makeDecode
  cases control with
  | goOn =>
      cases cur.decode with
      | none => exact congrArg (fun m => Except.ok (m, true)) h
      | some s =>
          dsimp only
          rw [decodeStage_bare hPipeline]
          refine bind_map_congr _ fun r => ?_
          rw [hNext, hStalls, hFlushed]
          split <;> exact congrArg (fun m => Except.ok (m, _)) (hStays _ _ _)
  | redirect target =>
      rw [hNext, hStalls]
      exact congrArg (fun m => Except.ok (m, true)) (hStays _ _ _)
  | stop =>
      rw [hNext, hStalls]
      exact congrArg (fun m => Except.ok (m, true)) (hStays _ _ _)

/-- behind Fetch, -/
theorem madeFetch_bare (h : m.bare = m'.bare) (slot : Option Slot) (decodeFree : Bool)
    (control : Control) :
    (madeFetch m slot decodeFree control).bare = (madeFetch m' slot decodeFree control).bare := by
  obtain ⟨pipeline, next, stalls, flushed⟩ := m
  obtain ⟨pipeline', next', stalls', flushed'⟩ := m'
  obtain ⟨hPipeline, hNext, hStalls, hFlushed⟩ := Making.bare_eq h
  dsimp only at hPipeline hNext hStalls hFlushed
  subst hNext hStalls hFlushed
  obtain ⟨_, _, _, _, _, _, rfl⟩ := exists_of_bare hPipeline
  unfold madeFetch followOn
  cases control with
  | redirect target => rfl
  | stop => rfl
  | goOn =>
      cases slot with
      | none => rfl
      | some s =>
          dsimp only
          split
          · rfl
          · split <;> rfl

/-- and so behind all stages of a tick. -/
theorem make_bare (h : p.bare = q.bare) :
    p.make.map (fun r => (r.1.bare, r.2)) = q.make.map (fun r => (r.1.bare, r.2)) := by
  obtain ⟨-, -, -, hStatus, hSlots⟩ := bare_eq h
  have hCommit : (p.commitOf : Slot → _) = q.commitOf := funext (commitOf_bare h)
  have hRunning : ({ p with status := .running } : Pipeline).bare =
      ({ q with status := .running } : Pipeline).bare :=
    congrArg (fun r : Pipeline => { r with status := .running }) h
  unfold make
  generalize ({ p with status := .running } : Pipeline) = r at hRunning
  generalize ({ q with status := .running } : Pipeline) = r' at hRunning
  rw [hStatus, hSlots, hCommit]
  split
  · rfl
  · refine bind_map_congr _ fun commit => ?_
    refine map_bind_congr (makeMemory_bare hRunning _) ?_
    rintro ⟨m₁, free₁⟩ ⟨m₁', free₁'⟩ hMemory
    obtain ⟨hFirst, hFree⟩ := Prod.mk.inj hMemory
    dsimp only at hFirst hFree ⊢
    subst hFree
    refine map_bind_congr (makeExecute_bare hFirst _ _) ?_
    rintro ⟨m₂, free₂, control⟩ ⟨m₂', free₂', control'⟩ hExecute
    obtain ⟨hSecond, hRest⟩ := Prod.mk.inj hExecute
    obtain ⟨hFree, hControl⟩ := Prod.mk.inj hRest
    dsimp only at hSecond hFree hControl ⊢
    subst hFree hControl
    refine map_bind_congr (makeDecode_bare hSecond _ _ _ _) ?_
    rintro ⟨m₃, free₃⟩ ⟨m₃', free₃'⟩ hDecode
    obtain ⟨hThird, hFree⟩ := Prod.mk.inj hDecode
    dsimp only at hThird hFree ⊢
    subst hFree
    rw [makeFetch_eq, makeFetch_eq]
    exact congrArg (fun m => Except.ok (m, commit)) (madeFetch_bare hThird _ _ _)

/-- An instruction that retires, whether or not it is compared with a reference machine. -/
theorem commitPoint_retires {cur : Slots} {c : Commit} (hKind : c.ins.kind ≠ .illegal)
    (h : commitPoint m cur (some c) = (.ok (), q)) :
    q.bare = { m.pipeline.bare with
      slots := slotsAfter c.ins.kind m.next
      status := statusAfter c.ins.kind m.pipeline.status
      cycle := m.pipeline.cycle + 1, registers := written m.pipeline.registers c
      stalls := bumpAll m.pipeline.stalls m.stalls, retired := m.pipeline.retired + 1
      commitLog := c :: m.pipeline.commitLog } := by
  have hPoint := commitPoint_legal m cur hKind
  rcases hCompared : compared m.pipeline.reference c with ⟨result, reference⟩
  rw [hCompared] at hPoint
  cases result with
  | error f =>
      obtain ⟨r, hFails, -⟩ := hPoint
      rw [hFails] at h
      cases h
  | ok mismatches =>
      obtain ⟨r, hOk, hRest, -⟩ := hPoint
      rw [hOk] at h
      cases h
      rw [hRest]
      rfl

/-- Two commits that do not fail. -/
theorem commitPoint_bare (h : m.bare = m'.bare) (cur : Slots) (commit : Option Commit)
    {p' q' : Pipeline} (hP : commitPoint m cur commit = (.ok (), p'))
    (hQ : commitPoint m' cur commit = (.ok (), q')) : p'.bare = q'.bare := by
  obtain ⟨pipeline, next, stalls, flushed⟩ := m
  obtain ⟨pipeline', next', stalls', flushed'⟩ := m'
  obtain ⟨hPipeline, hNext, hStalls, -⟩ := Making.bare_eq h
  dsimp only at hPipeline hNext hStalls
  subst hNext hStalls
  have hSame : ∀ change : Pipeline → Pipeline,
      (change pipeline).bare = change pipeline.bare →
      (change pipeline').bare = change pipeline'.bare →
      (change pipeline).bare = (change pipeline').bare := by
    intro change hLeft hRight
    rw [hLeft, hRight, hPipeline]
  cases commit with
  | none =>
      obtain ⟨r, hPoint, hRest, -⟩ := commitPoint_idle ⟨pipeline, next, stalls, flushed⟩ cur
      obtain ⟨r', hPoint', hRest', -⟩ := commitPoint_idle ⟨pipeline', next, stalls, flushed'⟩ cur
      rw [hPoint] at hP
      rw [hPoint'] at hQ
      cases hP
      cases hQ
      rw [hRest, hRest']
      exact hSame (fun p => { p with
        slots := next, cycle := p.cycle + 1, stalls := bumpAll p.stalls stalls }) rfl rfl
  | some c =>
      by_cases hKind : c.ins.kind = .illegal
      · obtain ⟨r, _, hPoint, hRest, -⟩ :=
          commitPoint_illegal ⟨pipeline, next, stalls, flushed⟩ cur hKind
        obtain ⟨r', _, hPoint', hRest', -⟩ :=
          commitPoint_illegal ⟨pipeline', next, stalls, flushed'⟩ cur hKind
        rw [hPoint] at hP
        rw [hPoint'] at hQ
        cases hP
        cases hQ
        rw [hRest, hRest']
        exact hSame (fun p => { p with
          slots := .bubbles, status := .illegalInstruction, cycle := p.cycle + 1
          registers := written p.registers c, stalls := bumpAll p.stalls stalls }) rfl rfl
      · rw [commitPoint_retires hKind hP, commitPoint_retires hKind hQ]
        exact hSame (fun p => { p.bare with
          slots := slotsAfter c.ins.kind next, status := statusAfter c.ins.kind p.status
          cycle := p.cycle + 1, registers := written p.registers c
          stalls := bumpAll p.stalls stalls, retired := p.retired + 1
          commitLog := c :: p.commitLog }) rfl rfl

/-- Two ticks that do not fail, of pipelines that are alike but for what watches them. -/
theorem tick_bare (h : p.bare = q.bare) {p' q' : Pipeline} (hP : p.tick = (.ok (), p'))
    (hQ : q.tick = (.ok (), q')) : p'.bare = q'.bare := by
  obtain ⟨-, -, -, -, hSlots⟩ := bare_eq h
  have hMake := make_bare h
  unfold tick at hP hQ
  cases hLeft : p.make with
  | error f =>
      rw [hLeft] at hP
      cases hP
  | ok r =>
      cases hRight : q.make with
      | error f =>
          rw [hRight] at hQ
          cases hQ
      | ok r' =>
          rw [hLeft, hRight] at hMake
          obtain ⟨hMaking, hCommit⟩ := Prod.mk.inj (Except.ok.inj hMake)
          rw [hLeft] at hP
          rw [hRight, hSlots] at hQ
          dsimp only at hP hQ
          rw [← hCommit] at hQ
          exact commitPoint_bare hMaking p.slots r.2 hP hQ

end Pipeline

end AccelPipe

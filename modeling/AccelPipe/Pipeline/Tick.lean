import AccelPipe.Pipeline.Stage

/-! One clock cycle. The stages are evaluated from the oldest instruction to the newest, so that a
stage knows whether the one in front of it becomes free, and all slots and the register result
change at once at the end. A branch resolves in Execute; nothing is predicted taken, so a taken
branch costs the two slots behind it. An instruction that ends the run stops fetching when it
starts in Execute, and ends the run when it is written back. -/
namespace AccelPipe.Pipeline

/-- The record of the instruction that is being written back. -/
def commitOf (p : Pipeline) (s : Slot) : Except Failure Commit := do
  let ins ← s.decoded
  let store ←
    if ins.kind = .store then
      match s.memAddr, s.storeValue with
      | some addr, some value => pure (some (Store.mk (p.memory.wrap addr) (s32 value)))
      | _, _ => throw .wrongShape
    else pure none
  if ins.writesRd && s.result.isNone then throw .wrongShape
  return {
    cycle := p.cycle, seq := s.seq, pc := s.pc, ins
    rd := if ins.writesRd then ins.rd else 0
    value := if ins.writesRd then s.result else none
    store, taken := s.taken, target := s.target, saturated := s.saturated
    paths := ForwardPath.all.filter fun path => (s.sources.toList.map (·.2)).contains path }

/-- What an instruction that starts in Execute means for those behind it. -/
inductive Control where
  | goOn
  | redirect (target : Nat)
  /-- Nothing behind this instruction will be committed. -/
  | stop
deriving DecidableEq

/-- Control passes on in the tick in which an instruction starts. -/
def controlOf (before after : Slot) : Control :=
  if before.started || !after.started then .goOn
  else match after.ins with
    | none => .goOn
    | some ins =>
      match ins.kind, after.taken, after.target with
      | .branch, true, some target => .redirect target
      | .system, _, _ | .illegal, _, _ => .stop
      | _, _, _ => .goOn

/-- A tick in the making: the pipeline, the slots that the next tick will see, and what has
happened so far. -/
structure Making where
  pipeline : Pipeline
  next : Slots := .bubbles
  stalls : List StallCause := []
  flushed : Bool := false

/-- Memory, and whether it becomes free. -/
def makeMemory (m : Making) (slot : Option Slot) : Except Failure (Making × Bool) := do
  match slot with
  | none => return (m, true)
  | some s =>
    let step ← m.pipeline.memoryStage s
    let next := if step.done then { m.next with writeback := some step.slot.enter }
      else { m.next with memory := some step.slot }
    return ({ m with pipeline := step.pipeline, next, stalls := m.stalls ++ step.stalls },
      step.done)

/-- Execute, whether it becomes free, and what it means for the instructions behind it. -/
def makeExecute (m : Making) (cur : Slots) (memoryFree : Bool) :
    Except Failure (Making × Bool × Control) := do
  match cur.execute with
  | none => return (m, true, .goOn)
  | some s =>
    let step ← m.pipeline.executeStage s cur.memory cur.writeback
    let leaves := step.done && memoryFree
    let next := if leaves then { m.next with memory := some step.slot.enter }
      else { m.next with execute := some { step.slot with stalled := true } }
    return ({ m with pipeline := step.pipeline, next, stalls := m.stalls ++ step.stalls },
      leaves, controlOf s step.slot)

/-- Decode, and whether it becomes free. -/
def makeDecode (m : Making) (cur : Slots) (memoryFree executeFree : Bool) (control : Control) :
    Except Failure (Making × Bool) := do
  match control, cur.decode with
  | .goOn, none => return (m, true)
  | .goOn, some s =>
    let (s, reason) ← m.pipeline.decodeStage s cur memoryFree
    if executeFree && reason.isNone then
      return ({ m with next := { m.next with execute := some s.enter } }, true)
    let stalls := if executeFree then reason.toList else []
    return ({ m with
      next := { m.next with decode := some { s with stalled := true } },
      stalls := m.stalls ++ stalls }, false)
  | _, slot => return ({ m with flushed := slot.isSome || cur.fetch.isSome }, true)

def fetchSlot (p : Pipeline) (pc : Int) : Slot := { pc, seq := p.seq + 1 }

/-- Puts an address into Fetch. -/
def fetchFrom (m : Making) (pc : Int) : Making :=
  { m with
    pipeline := { m.pipeline with seq := m.pipeline.seq + 1 }
    next := { m.next with fetch := some (fetchSlot m.pipeline pc) } }

/-- Fetch with nothing to drop: its slot moves on and the next address follows, or it waits. -/
def followOn (m : Making) (slot : Option Slot) (decodeFree : Bool) : Making :=
  let p := m.pipeline
  match slot with
  | none => m
  | some s =>
    if p.fetchStopped then m
    else if decodeFree then
      let fetched := { s with word := p.program.fetch s.pc }
      fetchFrom
        { m with
          pipeline := { p with fetched := p.fetched + 1 }
          next := { m.next with decode := some fetched.enter } }
        (s.pc + 4)
    else { m with next := { m.next with fetch := some { s with stalled := true } } }

/-- Fetch, as the instruction that starts in Execute directs it. -/
def makeFetch (m : Making) (slot : Option Slot) (decodeFree : Bool) (control : Control) :
    Except Failure Making := do
  let p := m.pipeline
  match control with
  | .redirect target =>
    let p ← { p with flushes := p.flushes + 1 }.cover .branchFlush p.cycle
    return fetchFrom { m with pipeline := p } target
  | .stop => return { m with pipeline := { p with fetchStopped := true } }
  | .goOn => return followOn m slot decodeFree

/-- Counts the stalls of a tick. -/
def countStalls (p : Pipeline) (stalls : List StallCause) : Except Failure Pipeline :=
  stalls.foldlM (fun p cause =>
    { p with stalls := bump p.stalls cause 1 }.cover (.stall cause) p.cycle) p

def traced (p : Pipeline) (m : Making) (cur : Slots) (commit : Option Commit) : Pipeline :=
  if p.config.trace then
    let entry := ⟨p.cycle, cur, m.stalls, commit.map (·.pc), m.flushed⟩
    { p with traceLog := entry :: p.traceLog }
  else p

/-- Compares a commit with the reference machine. Every mismatch is a fault. -/
def compare (p : Pipeline) (c : Commit) : Except Failure Unit × Pipeline :=
  match p.reference with
  | none => (.ok (), p)
  | some r =>
    let p := { p with reference := none }
    match r.check c with
    | (.error f, r) => (.error f, { p with reference := some r })
    | (.ok mismatches, r) =>
      (.ok (), mismatches.foldl (fun p m => p.record .correctness c.pc m.message)
        { p with reference := some r })

/-- Counts an instruction that is being retired. -/
def count (p : Pipeline) (c : Commit) : Except Failure Pipeline := do
  let (counted, coverage) := p.coverage.commit c.ins.kind c.cycle c.paths
  counted
  let p := { p with retired := p.retired + 1, coverage, forwards := p.forwards.note c.paths }
  if c.saturated then
    return (← p.cover .saturation c.cycle).record .saturation c.pc
      (c.ins.mnemonic.name ++ " clamped to " ++ Mismatch.optional Text.decimal c.value)
  else return p

/-- Retires an instruction: an illegal one is a fault, all others are counted and compared. One
that cannot be compared stays out of the log. -/
def retire (p : Pipeline) (c : Commit) : Except Failure Unit × Pipeline :=
  if c.ins.kind = .illegal then
    (.ok (), p.record .decode c.pc ("illegal instruction " ++ Text.hexAddress c.ins.word))
  else
    match p.count c with
    | .error f => (.error f, p)
    | .ok p =>
      match p.compare c with
      | (.error f, p) => (.error f, p)
      | (.ok (), p) => (.ok (), { p with commitLog := c :: p.commitLog })

def writeBack (p : Pipeline) (c : Commit) : Pipeline :=
  match c.value with
  | some v => { p with registers := p.registers.write c.rd v }
  | none => p

/-- How a run ends with an instruction. -/
def ending : Kind → Option RunStatus
  | .system => some .exited
  | .illegal => some .illegalInstruction
  | _ => none

/-- Ends a run with the instruction that has just been retired. -/
def finishWith (p : Pipeline) (c : Commit) : Pipeline :=
  match ending c.ins.kind with
  | some status => { p with status, slots := .bubbles }
  | none => p

/-- Makes the new slots current, and writes back and retires the oldest instruction. A run ends
only with an instruction that has been retired. -/
def commitPoint (m : Making) (cur : Slots) (commit : Option Commit) :
    Except Failure Unit × Pipeline :=
  let p := m.pipeline.traced m cur commit
  match p.countStalls m.stalls with
  | .error f => (.error f, p)
  | .ok p =>
    let p := { p with slots := m.next }
    match commit with
    | none => (.ok (), { p with cycle := p.cycle + 1 })
    | some c =>
      let p := p.writeBack c
      match { p with cycle := p.cycle + 1 }.retire c with
      | (.error f, p) => (.error f, p)
      | (.ok (), p) => (.ok (), p.finishWith c)

/-- The stages of a tick up to the commit point, with the instruction that reaches it. -/
def make (p : Pipeline) : Except Failure (Making × Option Commit) := do
  if p.status.finished then throw (.halted p.status)
  let cur := p.slots
  let commit ← cur.writeback.mapM p.commitOf
  let (m, memoryFree) ← makeMemory { pipeline := { p with status := .running } } cur.memory
  let (m, executeFree, control) ← makeExecute m cur memoryFree
  let (m, decodeFree) ← makeDecode m cur memoryFree executeFree control
  let m ← makeFetch m cur.fetch decodeFree control
  return (m, commit)

/-- Advances the pipeline by one clock cycle. Should the reference machine fail at the commit, all
else that the tick has changed stays changed. -/
def tick (p : Pipeline) : Except Failure Unit × Pipeline :=
  match p.make with
  | .error f => (.error f, p)
  | .ok (m, commit) => commitPoint m p.slots commit

/-- Ticks until the run is over or a cycle has been reached. -/
def runUntil (cycle : Nat) (fuel : Nat) (p : Pipeline) : Except Failure Unit × Pipeline :=
  match fuel with
  | 0 => (.ok (), p)
  | fuel + 1 =>
    if p.status.finished || cycle ≤ p.cycle then (.ok (), p)
    else
      match p.tick with
      | (.ok (), p) => runUntil cycle fuel p
      | failed => failed

/-- Every tick adds one to the cycle, so the distance to `cycle` bounds the ticks. -/
def runTo (p : Pipeline) (cycle : Nat) : Except Failure Unit × Pipeline :=
  runUntil cycle (cycle - p.cycle) p

end AccelPipe.Pipeline

import AccelPipe.Alu
import AccelPipe.Pipeline.Basic

/-! What a stage does with its slot in one tick. The slots of the other stages are those of the
end of the previous tick. -/
namespace AccelPipe

/-- A stage after a tick: its slot, whether the slot may move on, and why it has to wait. -/
structure StageStep where
  pipeline : Pipeline
  slot : Slot
  done : Bool
  stalls : List StallCause := []

namespace Pipeline

/-- A slot that waits for banks. -/
def bankConflict (p : Pipeline) (s : Slot) (ins : Instruction) (banks : List Nat) : StageStep :=
  let names := String.intercalate ", " (banks.map fun b : Nat => Text.decimal b)
  ⟨p.record .bankConflict s.pc (ins.text ++ " waits for bank " ++ names), s, false,
    [.bankConflict]⟩

/-- Starts the memory access of a slot. The number of ticks is absent if its bank is taken. -/
def beginAccess (p : Pipeline) (addr : Int) (isLoad : Bool) :
    Except Failure (Option Nat × Pipeline) := do
  let hits := p.memory.prefetchHits
  let (ticks, memory) := p.memory.begin addr p.cycle isLoad
  let q := { p with memory }
  let q ← if memory.prefetchHits = hits then pure q else q.cover .prefetchHit p.cycle
  return (ticks, q)

/-- Ends the memory access of a slot. -/
def completeAccess (p : Pipeline) (s : Slot) (addr : Int) (isLoad : Bool) :
    Except Failure StageStep :=
  if isLoad then
    let (value, memory) := p.memory.completeLoad addr
    .ok ⟨{ p with memory }, { s with result := some value, done := true }, true, []⟩
  else
    match s.storeValue with
    | none => .error .wrongShape
    | some value =>
      let memory := p.memory.completeStore addr value
      let units := p.units.snoop (memory.wrap addr)
      .ok ⟨{ p with memory, units }, { s with done := true }, true, []⟩

/-- Another tick of a memory access that has started. -/
def continueAccess (p : Pipeline) (s : Slot) (addr : Int) (isLoad : Bool) :
    Except Failure StageStep :=
  let s := { s with remaining := s.remaining - 1 }
  if 0 < s.remaining then .ok ⟨p, { s with stalled := true }, false, []⟩
  else p.completeAccess s addr isLoad

/-- The Memory stage. -/
def memoryStage (p : Pipeline) (s : Slot) : Except Failure StageStep := do
  let ins ← s.decoded
  if ins.kind != .load && ins.kind != .store then
    return ⟨p, { s with done := true }, true, []⟩
  let isLoad := ins.kind == .load
  match s.memAddr with
  | none => throw .wrongShape
  | some addr =>
    if s.started then p.continueAccess s addr isLoad
    else match ← p.beginAccess addr isLoad with
      | (none, p) =>
        return p.bankConflict { s with stalled := true } ins [p.memory.bankOf addr]
      | (some ticks, p) =>
        p.continueAccess { s with started := true, remaining := ticks } addr isLoad

/-- The value of an operand that the instruction cannot do without. -/
def needed (ops : Operands) (o : Operand) : Except Failure Int :=
  match ops.get? o with
  | some v => .ok v
  | none => .error .unknownName

/-- Hands an operation to its accelerator unit. Its words are read at once, which takes a port of
every bank they lie in and waits for an older store. -/
def issueAccelerator (p : Pipeline) (s : Slot) (ins : Instruction) (a : Accelerator)
    (mem : Option Slot) : Except Failure StageStep := do
  let addrs := p.units.reads a ins s.operands
  let latency := p.units.latency a
  if !addrs.isEmpty && (← Hazard.storeAhead mem) then
    return ⟨p, s, false, [.memoryOrder]⟩
  let (blocked, memory) :=
    if addrs.isEmpty then ([], p.memory) else p.memory.reserveBurst addrs p.cycle latency
  let p := { p with memory }
  if !blocked.isEmpty then
    return p.bankConflict s ins blocked
  let (result, units) := p.units.execute a ins s.operands (p.memory.readBlock addrs)
  let result ← result
  return ⟨{ p with units },
    { s with result := some result.value, saturated := result.saturated, remaining := latency },
    true, []⟩

/-- Starts the instruction in Execute. `done` says whether it has started. -/
def issue (p : Pipeline) (s : Slot) (ins : Instruction) (mem : Option Slot) :
    Except Failure StageStep := do
  let started (s : Slot) : StageStep := ⟨p, s, true, []⟩
  match ins.kind with
  | .alu =>
    let value ← (ins.alu s.operands s.pc).mapError .refused
    return started { s with result := some value }
  | .branch =>
    let (taken, target) ← (ins.branch s.operands s.pc).mapError .refused
    let result := if ins.writesRd then some (s32 (s.pc + 4)) else s.result
    return started { s with taken, target := some target, result }
  | .load =>
    let base ← needed s.operands .rs1
    return started { s with memAddr := some (base + ins.imm) }
  | .store =>
    let base ← needed s.operands .rs1
    let value ← needed s.operands .rs2
    return started { s with memAddr := some (base + ins.imm), storeValue := some value }
  | k =>
    match Accelerator.ofKind? k with
    | some a => p.issueAccelerator s ins a mem
    | none => return started s

/-- One tick of an instruction that has started. -/
def advance (s : Slot) : Slot :=
  let remaining := s.remaining - 1
  { s with remaining, done := remaining == 0 }

/-- The Execute stage. -/
def executeStage (p : Pipeline) (s : Slot) (mem wb : Option Slot) : Except Failure StageStep := do
  if s.started then
    let s := advance s
    return ⟨p, s, s.done, []⟩
  let ins ← s.decoded
  let f := Hazard.forward ins ⟨s.operands, s.sources⟩ mem wb
  let s := { s with operands := f.operands, sources := f.sources }
  if !f.ready then
    return ⟨p, s, false, [.loadUse]⟩
  let step ← p.issue { s with remaining := 1 } ins mem
  if step.done then
    let s := advance { step.slot with stalled := false, started := true }
    return ⟨step.pipeline, s, s.done, step.stalls⟩
  return step

/-- The Decode stage: the slot with its instruction and operands, and why it has to wait. -/
def decodeStage (p : Pipeline) (s : Slot) (cur : Slots) (memCompletes : Bool) :
    Except Failure (Slot × Option StallCause) := do
  let ins := s.ins.getD (Instruction.decode s.word)
  let r := Hazard.readOperands ins p.registers cur.writeback
  let blocking := (Accelerator.all.filter Accelerator.blocking).map Accelerator.kind
  let reason ← Hazard.decodeStall blocking ins cur.execute cur.memory memCompletes
  return ({ s with ins := some ins, operands := r.operands, sources := r.sources }, reason)

end Pipeline

end AccelPipe

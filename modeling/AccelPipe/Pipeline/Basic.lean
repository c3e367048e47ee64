import AccelPipe.Accelerator.Units
import AccelPipe.Memory.Basic
import AccelPipe.Pipeline.Hazard
import AccelPipe.Pipeline.Trace
import AccelPipe.Reference.Check

/-! The state of a pipeline between two ticks. Logs keep their newest entry first. -/
namespace AccelPipe

structure Pipeline where
  config : Config
  program : Image
  memory : Memory
  units : Units
  coverage : Coverage := {}
  /-- The machine that every commit is compared with, if there is one. -/
  reference : Option Reference := none
  forwards : Hazard.Counters := .fresh
  registers : Registers := {}
  cycle : Nat := 0
  status : RunStatus := .ready
  slots : Slots := .bubbles
  /-- The number of the slot that was fetched last. -/
  seq : Nat := 0
  fetchStopped : Bool := false
  retired : Nat := 0
  fetched : Nat := 0
  flushes : Nat := 0
  stalls : List (StallCause × Int) := []
  faultLog : List Fault := []
  traceLog : List TraceEntry := []
  commitLog : List Commit := []

namespace Pipeline

/-- Starts anew at an address. Memory, units, coverage and the reference machine stay as they
are. -/
def reset (p : Pipeline) (pc : Int) : Pipeline :=
  { p with
    registers := {}, cycle := 0, status := .ready
    slots := { Slots.bubbles with fetch := some { pc, seq := 1 } }
    seq := 1, fetchStopped := false, retired := 0, fetched := 0, flushes := 0
    stalls := [], faultLog := [], traceLog := [] }

def fresh (config : Config) (program : Image) (reference : Option Reference) : Pipeline :=
  reset
    { config, program, reference, memory := Memory.fresh config, units := Units.fresh config }
    config.startPc

/-- Takes another program and starts anew, at the configured address unless another is given. -/
def load (p : Pipeline) (program : Image) (pc : Option Int) : Pipeline :=
  reset { p with program } (pc.getD p.config.startPc)

/-- The address that is being fetched; absent once fetching has stopped. -/
def pc (p : Pipeline) : Option Int := p.slots.fetch.map (·.pc)

def faults (p : Pipeline) : List Fault := p.faultLog.reverse

def trace (p : Pipeline) : List TraceEntry := p.traceLog.reverse

def commits (p : Pipeline) : List Commit := p.commitLog.reverse

def record (p : Pipeline) (kind : FaultKind) (pc : Int) (message : String) : Pipeline :=
  { p with faultLog := ⟨kind, p.cycle, pc, message⟩ :: p.faultLog }

/-- Reports a path to coverage, by its name. -/
def cover (p : Pipeline) (path : HazardPath) (cycle : Nat) : Except Failure Pipeline := do
  return { p with coverage := ← p.coverage.hitName path.name cycle }

/-- Ends the run for want of cycles. -/
def timeout (p : Pipeline) : Pipeline :=
  let message := "no exit after " ++ Text.decimal p.cycle ++ " cycles"
  { p.record .timeout (p.pc.getD 0) message with status := .timeout }

end Pipeline

end AccelPipe

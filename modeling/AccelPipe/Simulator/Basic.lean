import AccelPipe.Config.Read
import AccelPipe.Pipeline.Tick
import AccelPipe.Simulator.Journal

/-! A simulator: one program under one configuration, with data to load before the run. Building a
run anew keeps program, data and configuration; nothing else survives but the journal. -/
namespace AccelPipe

structure Simulator where
  config : Config
  program : Image := #[]
  /-- Data in the order in which it was given. -/
  preloads : List (Int × List Int) := []
  pipeline : Pipeline
  /-- The events of the runs before this one. -/
  past : Journal := {}

namespace Simulator

/-- Writes data into the memory of a pipeline and into that of its reference machine. -/
def preloadInto (p : Pipeline) (data : Int × List Int) : Pipeline :=
  { p with
    memory := p.memory.load data.1 data.2
    reference := p.reference.map fun r => r.load data.1 data.2 }

/-- A pipeline at the start of a run. -/
def build (config : Config) (program : Image) (preloads : List (Int × List Int)) : Pipeline :=
  let reference := if config.checkReference then some (Reference.fresh config program) else none
  preloads.foldl preloadInto (Pipeline.fresh config program reference)

def fresh (config : Config) : Simulator := { config, pipeline := build config #[] [] }

/-- A simulator whose memory can be held. -/
def create (config : Config) : Except Failure Simulator := do
  Memory.checkRoom config
  return fresh config

/-- All events so far. -/
def journal (s : Simulator) : Journal := s.past.append (Journal.ofRun s.pipeline)

/-- A fresh run of the same program and data. -/
def reset (s : Simulator) : Simulator :=
  { s with past := s.journal, pipeline := build s.config s.program s.preloads }

def announce (s : Simulator) (n : Notice) : Simulator :=
  { s with past := s.past.append { notices := [n] } }

/-- Loads a program and builds a fresh run, from another address if one is given. If that address
is rejected, the run goes on as it was, but the next reset takes the new program. -/
def load (s : Simulator) (program : Image) (pc : Option Int) :
    Except Failure Unit × Simulator :=
  let s := { s with program }
  let config : Except ConfigError Config := match pc with
    | none => .ok s.config
    | some pc => s.config.replace [("start_pc", .int pc)]
  match config with
  | .error e => (.error (.ofConfig e), s)
  | .ok config =>
    let s := { s with config }.reset
    (.ok (), s.announce (.loaded program.size s.config.startPc))

/-- Loads data, now and in every later run. -/
def preload (s : Simulator) (addr : Int) (words : List Int) : Simulator :=
  { s with
    preloads := s.preloads ++ [(addr, words)]
    pipeline := preloadInto s.pipeline (addr, words) }

def status (s : Simulator) : RunStatus := s.pipeline.status

def cycle (s : Simulator) : Nat := s.pipeline.cycle

/-- Compares the final state with the reference machine, unless the run has timed out. -/
def finalize (p : Pipeline) : Except Failure Unit × Pipeline :=
  match p.reference with
  | some r =>
    if p.status = .timeout then (.ok (), p)
    else
      match r.compareFinal p.registers.toList p.memory.snapshot with
      | .error f => (.error f, p)
      | .ok mismatches =>
        (.ok (), mismatches.foldl (fun p m => p.record .correctness (p.pc.getD 0) m.message) p)
  | none => (.ok (), p)

/-- One clock cycle within a budget. A run that has used it up times out. -/
def advance (budget : Int) (p : Pipeline) : Except Failure Unit × Pipeline :=
  if p.status.finished then (.error (.halted p.status), p)
  else
    match if budget ≤ p.cycle then (.ok (), p.timeout) else p.tick with
    | (.error f, p) => (.error f, p)
    | (.ok (), p) => if p.status.finished then finalize p else (.ok (), p)

def onPipeline (s : Simulator) (change : Pipeline → Except Failure Unit × Pipeline) :
    Except Failure Unit × Simulator :=
  let (r, pipeline) := change s.pipeline
  (r, { s with pipeline })

def tick (s : Simulator) : Except Failure Unit × Simulator :=
  s.onPipeline (advance s.config.maxCycles)

/-- Advances until the run is over, at most `fuel` times. -/
def advanceToEnd (budget : Int) (fuel : Nat) (p : Pipeline) : Except Failure Unit × Pipeline :=
  match fuel with
  | 0 => (.ok (), p)
  | fuel + 1 =>
    if p.status.finished then (.ok (), p)
    else
      match advance budget p with
      | (.ok (), p) => advanceToEnd budget fuel p
      | failed => failed

/-- Runs until the program ends, fails or runs out of cycles. Every advance but the last adds one
to the cycle, so the budget bounds their number. -/
def run (s : Simulator) (maxCycles : Option Int) : Except Failure Unit × Simulator :=
  let budget := maxCycles.getD s.config.maxCycles
  s.onPipeline (advanceToEnd budget ((budget - s.pipeline.cycle).toNat + 1))

def faults (s : Simulator) : List Fault := s.pipeline.faults

def correctnessFaults (s : Simulator) : List Fault :=
  s.faults.filter fun f => f.kind = .correctness

/-- Words at consecutive addresses. -/
def words (s : Simulator) (addr : Int) (count : Nat) : List Int :=
  s.pipeline.memory.readBlock (rowAddrs count addr)

end Simulator

end AccelPipe

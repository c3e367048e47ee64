import AccelPipe.Text.Numeral

/-! What can go wrong inside a run, and the states of a run. A fault is recorded on the run's own
channel; only some of them end the run. -/
namespace AccelPipe

inductive FaultKind where
  | decode
  | saturation
  | bankConflict
  | correctness
  | timeout
deriving DecidableEq

namespace FaultKind

def name : FaultKind → String
  | decode => "decode"
  | saturation => "saturation"
  | bankConflict => "bank_conflict"
  | correctness => "correctness"
  | timeout => "timeout"

/-- The faults that end a run. -/
def terminal : FaultKind → Bool
  | decode | timeout => true
  | _ => false

end FaultKind

inductive RunStatus where
  | ready
  | running
  | exited
  | illegalInstruction
  | timeout
deriving DecidableEq

namespace RunStatus

def name : RunStatus → String
  | ready => "ready"
  | running => "running"
  | exited => "exited"
  | illegalInstruction => "illegal_instruction"
  | timeout => "timeout"

def finished : RunStatus → Bool
  | ready | running => false
  | _ => true

end RunStatus

structure Fault where
  kind : FaultKind
  cycle : Nat
  pc : Int
  message : String

namespace Fault

def terminal (f : Fault) : Bool := f.kind.terminal

/-- One line: cycle, kind, address and message in columns. -/
def text (f : Fault) : String :=
  "[" ++ Text.padLeft 6 (Text.decimal f.cycle) ++ "] " ++ Text.padRight 13 f.kind.name ++
    " pc=" ++ Text.hexAddress f.pc ++ "  " ++ f.message

end Fault

end AccelPipe

import AccelPipe.Assembly.Error
import AccelPipe.Config.Fault
import AccelPipe.Fault

/-! Why an operation fails as a whole. Faults inside a run are not failures: they are recorded on
the run's own channel. -/
namespace AccelPipe

/-- Why a file cannot be opened. -/
inductive FileReason where
  | absent
  | directory
  | notDirectory
  | nameTooLong
deriving DecidableEq

structure FileFault where
  reason : FileReason
  path : String

def FileFault.message (f : FileFault) : String :=
  let reason := match f.reason with
    | .absent => "[Errno 2] No such file or directory"
    | .directory => "[Errno 21] Is a directory"
    | .notDirectory => "[Errno 20] Not a directory"
    | .nameTooLong => "[Errno 36] File name too long"
  reason ++ ": " ++ Text.quoted f.path

inductive Failure where
  | refused (refusal : Refusal)
  | assembly (error : Assembly.Error)
  | config (fault : ConfigFault)
  /-- A step of a run that is over. -/
  | halted (status : RunStatus)
  | file (fault : FileFault)
  | indexOutOfRange
  | unknownName
  | divisionByZero
  | wrongShape
  /-- A slot is asked for its instruction before it has one. -/
  | noInstruction
  /-- Data without a text that says what it is. -/
  | noText
  /-- A word of more than 64 bits where the reference machine keeps words. -/
  | tooWide
  /-- Something too large to be held. -/
  | noRoom (lack : Lack)
  /-- Data with more containers inside each other than are followed. -/
  | tooDeep

namespace Failure

def ofConfig : ConfigError → Failure
  | .fault f => .config f
  | .mixedRows | .unknownSetting => .wrongShape
  | .unwritable .tooDeep => .tooDeep
  | .unwritable .tooLong => .refused .unwritable

/-- A source that would need more room than there is fails for that, not for its text. -/
def ofAssembly (error : Assembly.Error) : Failure :=
  match error.cause with
  | .noRoom lack => .noRoom lack
  | _ => .assembly error

def message : Failure → String
  | refused refusal => refusal.message
  | assembly error => error.message
  | config fault => fault.message
  | halted status => "Run already finished (" ++ status.name ++ ")"
  | file fault => fault.message
  | indexOutOfRange => "index out of range"
  | unknownName => "unknown name"
  | divisionByZero => "division by zero"
  | wrongShape => "wrong shape"
  | noInstruction => "no instruction"
  | noText => "no text"
  | tooWide => "word too wide"
  | noRoom _ => "no room"
  | tooDeep => "nested too deeply"

end Failure

/-- The place that an index means in a row of `size` places: negative ones count from the end. -/
def place? (size : Nat) (index : Int) : Option Nat :=
  let i := if index < 0 then index + size else index
  if 0 ≤ i ∧ i < size then some i.toNat else none

/-- Where a bound of a section falls in a row of `size` places: negative ones count from the end,
and all are moved into the row. -/
def sectionBound (size : Nat) (bound : Int) : Nat :=
  let b := if bound < 0 then bound + size else bound
  min b.toNat size

/-- The items from `start` up to before `stop`. -/
def sectionOf {α : Type} (items : List α) (start stop : Int) : List α :=
  let first := sectionBound items.length start
  let last := sectionBound items.length stop
  (items.drop first).take (last - first)

end AccelPipe

import AccelPipe.Pipeline.Basic

/-! What a simulator has announced: commits, faults, coverage and notices of all its runs. -/
namespace AccelPipe

inductive Severity where
  | debug
  | info
  | warning
  | error
deriving DecidableEq

namespace Severity

def rank : Severity → Nat
  | debug => 0
  | info => 1
  | warning => 2
  | error => 3

def name : Severity → String
  | debug => "DEBUG"
  | info => "INFO"
  | warning => "WARNING"
  | error => "ERROR"

end Severity

inductive Notice where
  | loaded (words : Nat) (pc : Int)
  | fault (fault : Fault)
  | finished (status : RunStatus) (cycles retired : Nat)

namespace Notice

def severity : Notice → Severity
  | loaded .. => .debug
  | finished .. => .info
  | fault f =>
    if f.kind = .correctness then .error else if f.terminal then .warning else .debug

def text : Notice → String
  | loaded words pc =>
    "loaded " ++ Text.decimal words ++ " words at pc " ++ Text.hex pc
  | fault f => f.text
  | finished status cycles retired =>
    "run finished: " ++ status.name ++ " after " ++ Text.decimal cycles ++ " cycles, " ++
      Text.decimal retired ++ " retired"

def line (n : Notice) : String := n.severity.name ++ " system: " ++ n.text

end Notice

/-- Events in the order in which they happened. -/
structure Journal where
  commits : List Commit := []
  faults : List Fault := []
  coverage : List (CoveragePoint × Int) := []
  notices : List Notice := []

namespace Journal

def append (a b : Journal) : Journal :=
  ⟨a.commits ++ b.commits, a.faults ++ b.faults, a.coverage ++ b.coverage, a.notices ++ b.notices⟩

/-- The events of one run. -/
def ofRun (p : Pipeline) : Journal where
  commits := p.commits
  faults := p.faults
  coverage := p.coverage.hits.reverse
  notices := p.faults.map .fault ++
    if p.status.finished then [.finished p.status p.cycle p.retired] else []

end Journal

/-- The kinds of event that an observer may ask for. -/
inductive EventKind where
  | commit
  | fault
  | coverage
deriving DecidableEq

def EventKind.ofName (name : String) : Except Failure EventKind :=
  if name = "commit" then .ok .commit
  else if name = "fault" then .ok .fault
  else if name = "coverage" then .ok .coverage
  else .error (.refused (.event name))

end AccelPipe

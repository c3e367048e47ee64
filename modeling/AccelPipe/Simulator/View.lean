import AccelPipe.Simulator.Report

/-! The state of a simulator as text. -/
namespace AccelPipe.Simulator

/-- The name of a unit and what is said of its state. A state may hold a number that cannot be
written. -/
def unitLine (name : String) (state : Value) (text : String) : Except Failure String :=
  if state.isWritable then .ok ("  " ++ Text.padRight 7 name ++ " " ++ text)
  else .error (.refused .unwritable)

/-- The names and values of a state. -/
def cells (state : Value) : String :=
  match state with
  | .record fields => String.intercalate " " (fields.map fun (n, v) => n ++ "=" ++ v.shown)
  | _ => ""

def bankLine (i : Nat) (b : Bank) : String :=
  "  bank " ++ Text.decimal i ++ ": accesses=" ++ Text.decimal b.accesses ++ " conflicts=" ++
    Text.decimal b.conflicts

/-- Registers, stages, units and memory. -/
def stateText (s : Simulator) : Except Failure String := do
  let p := s.pipeline
  let units ← p.units.state.mapM fun (name, state) => unitLine name state (cells state)
  return String.intercalate "\n"
    (["=== Registers ===", p.registers.dump, "", "=== Pipeline ===", p.view, "", "=== Units ==="] ++
     units ++ ["", "=== Memory banks ==="] ++
     p.memory.banks.toList.mapIdx bankLine ++
     ["  nonzero words: " ++ Text.decimal p.memory.nonzero.length])

/-- The trace from an entry on, so many entries long or to its end. -/
def traceText (s : Simulator) (start : Int) (count : Option Int) : String :=
  let entries := s.pipeline.trace
  let stop := match count with
    | some n => start + n
    | none => entries.length
  String.intercalate "\n"
    (TraceEntry.header :: (sectionOf entries start stop).map TraceEntry.text)

end AccelPipe.Simulator

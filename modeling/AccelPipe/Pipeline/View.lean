import AccelPipe.Binary64
import AccelPipe.Pipeline.Tick

/-! A pipeline as text, and its counters. -/
namespace AccelPipe.Pipeline

def viewLine (name : String) (slot : Option Slot) : String :=
  let pc := match slot with
    | some s => Text.hexAddress s.pc
    | none => Text.blanks 10
  "  " ++ Text.padRight 4 name ++ " " ++ pc ++ "  " ++ slotLabel slot

/-- The stages of a pipeline, one to a line. -/
def view (p : Pipeline) : String :=
  String.intercalate "\n"
    (("  cycle " ++ Text.decimal p.cycle ++ "  status " ++ p.status.name) ::
      List.zipWith viewLine Stages.names.toList p.slots.toList)

/-- Cycles for each retired instruction, in thousandths; zero if none has retired. -/
def cpi (p : Pipeline) : Nat := thousandths p.cycle p.retired

end AccelPipe.Pipeline

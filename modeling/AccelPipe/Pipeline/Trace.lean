import AccelPipe.Instruction.Render
import AccelPipe.Pipeline.Slot

/-! The cycle trace: what the stages held at the start of each cycle, and what happened in it. -/
namespace AccelPipe

/-- A slot in one line: its instruction, or its address as long as it has not been decoded, and a
star if it waits. -/
def Slot.label (s : Slot) : String :=
  (match s.ins with
   | some ins => ins.text
   | none => "@" ++ Text.hex s.pc) ++ (if s.stalled then " *" else "")

def slotLabel : Option Slot → String
  | some s => s.label
  | none => "-"

structure TraceEntry where
  cycle : Nat
  slots : Slots
  stalls : List StallCause
  committed : Option Int
  flushed : Bool

namespace TraceEntry

/-- A column of 22 characters. -/
def column (text : String) : String :=
  Text.padRight 22 (String.ofList (text.toList.take 22))

def notes (e : TraceEntry) : List String :=
  (match e.committed with
   | some pc => ["commit " ++ Text.hex pc]
   | none => []) ++
  (if e.flushed then ["flush"] else []) ++ e.stalls.map StallCause.name

def text (e : TraceEntry) : String :=
  Text.padLeft 6 (Text.decimal e.cycle) ++ " | " ++
    String.intercalate " | " (e.slots.toList.map (column ∘ slotLabel)) ++ " | " ++
    String.intercalate ", " e.notes

def header : String :=
  " cycle | " ++ String.intercalate " | " (Stages.names.toList.map column)

end TraceEntry

end AccelPipe

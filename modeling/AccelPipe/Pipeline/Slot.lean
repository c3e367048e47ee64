import AccelPipe.Coverage

/-! What a stage of the pipeline holds: an instruction on its way, with all that has been found
out about it. A stage that holds nothing holds a bubble. -/
namespace AccelPipe

structure Slot where
  pc : Int
  word : Nat := 0
  /-- Absent until the instruction has been decoded. -/
  ins : Option Instruction := none
  operands : Operands := {}
  /-- The operands that did not come from the register file, and the path each of them took. -/
  sources : OperandMap ForwardPath := {}
  result : Option Int := none
  stalled : Bool := false
  started : Bool := false
  done : Bool := false
  /-- The ticks that are left to the current stage. -/
  remaining : Nat := 0
  memAddr : Option Int := none
  storeValue : Option Int := none
  taken : Bool := false
  target : Option Nat := none
  saturated : Bool := false
  seq : Nat := 0

namespace Slot

/-- The slot as the next stage takes it over: progress within a stage is forgotten. -/
def enter (s : Slot) : Slot :=
  { s with stalled := false, started := false, done := false, remaining := 0 }

/-- The instruction; the stages behind decoding always have one. -/
def decoded (s : Slot) : Except Failure Instruction :=
  match s.ins with
  | some ins => .ok ins
  | none => .error .noInstruction

def isKind (s : Slot) (k : Kind) : Bool :=
  match s.ins with
  | some ins => ins.kind == k
  | none => false

end Slot

/-- The five stages. -/
structure Stages (α : Type) where
  fetch : α
  decode : α
  execute : α
  memory : α
  writeback : α

namespace Stages

variable {α β : Type}

def toList (s : Stages α) : List α := [s.fetch, s.decode, s.execute, s.memory, s.writeback]

def names : Stages String := ⟨"IF", "ID", "EX", "MEM", "WB"⟩

end Stages

/-- What the five stages hold; a bubble is absent. -/
abbrev Slots := Stages (Option Slot)

def Slots.bubbles : Slots := ⟨none, none, none, none, none⟩

end AccelPipe

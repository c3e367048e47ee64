import AccelPipe.Pipeline.Slot
import AccelPipe.Registers

/-! Where an operand comes from while its producer is still under way, and when an instruction has
to wait for it. A value reaches Execute from the two stages in front of it, and Decode from the
instruction that is being written back. All decisions look at the slots as they were at the end of
the previous tick. -/
namespace AccelPipe.Hazard

/-- The path between two stages that are so many stages apart. -/
def pathAt? : Int → Option ForwardPath
  | 1 => some .exToEx
  | 2 => some .memToEx
  | 3 => some .wbToId
  | _ => none

/-- The stages that a path joins. -/
def ends : ForwardPath → String × String
  | .exToEx => ("EX", "EX")
  | .memToEx => ("MEM", "EX")
  | .wbToId => ("WB", "ID")

/-- The register that a slot will write; zero if there is none. -/
def produced (s : Slot) : Nat :=
  match s.ins with
  | some ins => ins.produces
  | none => 0

/-- The register result of a slot, if it has one to hand on. A load has none until its memory
access is complete. -/
def ready? (slot : Option Slot) : Option Int := do
  let s ← slot
  if produced s = 0 then none else s.result

/-- An operand value, and its path unless it came from the register file. -/
structure Reading where
  operands : Operands := {}
  sources : OperandMap ForwardPath := {}

def Reading.take (r : Reading) (o : Operand) (value : Int) (path : ForwardPath) : Reading :=
  ⟨r.operands.set o value, r.sources.set o path⟩

/-- The value that is just being written back to a register. -/
def writtenBack? (wb : Option Slot) (reg : Nat) : Option Int := do
  let s ← wb
  if reg ≠ 0 ∧ produced s = reg then ready? wb else none

/-- The operands of an instruction in Decode. -/
def readOperands (ins : Instruction) (registers : Registers) (wb : Option Slot) : Reading :=
  ins.sources.foldl (fun r (o, reg) =>
    match writtenBack? wb reg with
    | some v => r.take o v .wbToId
    | none => { r with operands := r.operands.set o (registers.read reg) }) {}

def sourceRegisters (ins : Instruction) : List Nat := (ins.sources.map (·.2)).filter (· != 0)

/-- Whether a slot is a load of one of the registers. -/
def loadsOneOf (registers : List Nat) (slot : Option Slot) : Except Failure Bool :=
  match slot with
  | none => .ok false
  | some s => do
    let ins ← s.decoded
    return ins.kind == .load && registers.contains ins.produces

/-- Whether a slot is of a kind. -/
def holds (k : Kind) (slot : Option Slot) : Except Failure Bool :=
  match slot with
  | none => .ok false
  | some s => do
    let ins ← s.decoded
    return ins.kind == k

/-- Whether the instruction in Decode needs a value that a load has not brought yet. -/
def waitsForLoad (ins : Instruction) (ex mem : Option Slot) (memCompletes : Bool) :
    Except Failure Bool := do
  let registers := sourceRegisters ins
  if registers.isEmpty then return false
  if ← loadsOneOf registers ex then return true
  return (← loadsOneOf registers mem) && !memCompletes

/-- Whether the unit of the instruction in Decode is still taken. -/
def waitsForUnit (blocking : List Kind) (ins : Instruction) (ex mem : Option Slot) :
    Except Failure Bool := do
  if !blocking.contains ins.kind then return false
  if ← holds ins.kind ex then return true
  holds ins.kind mem

/-- Why the instruction in Decode has to wait. -/
def decodeStall (blocking : List Kind) (ins : Instruction) (ex mem : Option Slot)
    (memCompletes : Bool) : Except Failure (Option StallCause) := do
  if ← waitsForLoad ins ex mem memCompletes then return some .loadUse
  if ← waitsForUnit blocking ins ex mem then return some .unitBusy
  return none

/-- The nearest producer of a register in front of Execute, and the path from it. -/
def producer? (mem wb : Option Slot) (reg : Nat) : Option (Slot × ForwardPath) :=
  if reg = 0 then none
  else match mem.filter (produced · == reg) with
    | some s => some (s, .exToEx)
    | none => (wb.filter (produced · == reg)).map (·, .memToEx)

structure Forwarding extends Reading where
  /-- Whether every producer has its value. -/
  ready : Bool := true

/-- The operands of an instruction in Execute. -/
def forward (ins : Instruction) (latched : Reading) (mem wb : Option Slot) : Forwarding :=
  ins.sources.foldl (fun f (o, reg) =>
    match producer? mem wb reg with
    | none => f
    | some (s, path) =>
      match s.result with
      | some v => { f with toReading := f.take o v path }
      | none => { f with ready := false }) { toReading := latched }

/-- A store that is still in Memory goes before the window of an accelerator. -/
def storeAhead (mem : Option Slot) : Except Failure Bool := holds .store mem

/-- How often each path has been taken by committed instructions. -/
abbrev Counters := List (ForwardPath × Int)

def Counters.fresh : Counters := ForwardPath.all.map (·, 0)

def Counters.note (counters : Counters) (paths : List ForwardPath) : Counters :=
  paths.foldl (fun counters p => bump counters p 1) counters

end AccelPipe.Hazard

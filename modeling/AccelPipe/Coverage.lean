import AccelPipe.Failure
import AccelPipe.Instruction.Basic

/-! Coverage: how often each kind of instruction was committed and each hazard path was taken.
Coverage only watches; it never has a say in timing. -/
namespace AccelPipe

/-- A way for a register value to reach an instruction before it is in the register file. -/
inductive ForwardPath where
  | exToEx
  | memToEx
  | wbToId
deriving DecidableEq

def ForwardPath.name : ForwardPath → String
  | .exToEx => "fwd_ex_ex"
  | .memToEx => "fwd_mem_ex"
  | .wbToId => "fwd_wb_id"

def ForwardPath.all : List ForwardPath := [.exToEx, .memToEx, .wbToId]

/-- Why an instruction waits. -/
inductive StallCause where
  | loadUse
  | unitBusy
  | memoryOrder
  | bankConflict
deriving DecidableEq

def StallCause.name : StallCause → String
  | .loadUse => "stall_load_use"
  | .unitBusy => "stall_unit_busy"
  | .memoryOrder => "stall_mem_order"
  | .bankConflict => "bank_conflict"

inductive HazardPath where
  | forward (path : ForwardPath)
  | stall (cause : StallCause)
  | branchFlush
  | saturation
  | prefetchHit
deriving DecidableEq

def HazardPath.name : HazardPath → String
  | .forward path => path.name
  | .stall cause => cause.name
  | .branchFlush => "branch_flush"
  | .saturation => "saturation"
  | .prefetchHit => "prefetch_hit"

def HazardPath.all : List HazardPath :=
  [.forward .exToEx, .forward .memToEx, .forward .wbToId, .stall .loadUse, .stall .unitBusy,
   .stall .memoryOrder, .stall .bankConflict, .branchFlush, .saturation, .prefetchHit]

/-- What coverage counts. -/
inductive CoveragePoint where
  | kind (kind : Kind)
  | path (path : HazardPath)
deriving DecidableEq

namespace CoveragePoint

def name : CoveragePoint → String
  | kind k => k.name
  | path p => p.name

def ofName? (name : String) : Option CoveragePoint :=
  match HazardPath.all.find? (·.name == name) with
  | some p => some (.path p)
  | none => (Kind.ofName? name).map .kind

def ofName (name : String) : Except Failure CoveragePoint :=
  match ofName? name with
  | some p => .ok p
  | none => .error (.refused (.coveragePoint name))

/-- The kinds that a complete stimulus commits. -/
def expectedKinds : List Kind := [.alu, .load, .store, .branch, .mac, .relu, .conv2d, .fir, .pool]

/-- What a complete stimulus reaches. -/
def expected : List CoveragePoint := expectedKinds.map .kind ++ HazardPath.all.map .path

end CoveragePoint

/-- Adds to a counter; one that is not there yet comes last. -/
def bump {α : Type} [DecidableEq α] (counts : List (α × Int)) (key : α) (n : Int) :
    List (α × Int) :=
  match counts with
  | [] => [(key, n)]
  | (k, c) :: rest => if k = key then (k, c + n) :: rest else (k, c) :: bump rest key n

structure Coverage where
  kinds : List (Kind × Int) := CoveragePoint.expectedKinds.map (·, 0)
  paths : List (HazardPath × Int) := HazardPath.all.map (·, 0)
  /-- The cycle at which each point was first reached, in the order in which they were. -/
  firstHit : List (CoveragePoint × Int) := []
  goals : List CoveragePoint := CoveragePoint.expected
  /-- The name and the cycle of every hit, newest first. -/
  log : List (String × Int) := []

namespace Coverage

variable (c : Coverage)

/-- A tracker with goals of its own, named one by one. -/
def withGoals (names : List String) : Except Failure Coverage := do
  let goals ← names.mapM CoveragePoint.ofName
  return { goals }

def remember (firsts : List (CoveragePoint × Int)) (p : CoveragePoint) (cycle : Int) :
    List (CoveragePoint × Int) :=
  if (firsts.lookup p).isSome then firsts else firsts ++ [(p, cycle)]

/-- Counts a point. -/
def hit (p : CoveragePoint) (cycle : Int) (count : Int) : Coverage :=
  let counted : Coverage := match p with
    | .kind k => { c with kinds := bump c.kinds k count }
    | .path q => { c with paths := bump c.paths q count }
  { counted with firstHit := remember c.firstHit p cycle, log := (p.name, cycle) :: c.log }

/-- Counts a point once, by its name. A name that means nothing is refused. -/
def hitName (name : String) (cycle : Int) : Except Failure Coverage := do
  return c.hit (← CoveragePoint.ofName name) cycle 1

/-- Hits one after the other. All names before an unknown one count. -/
def hitNames (cycle : Int) (c : Coverage) : List String → Except Failure Unit × Coverage
  | [] => (.ok (), c)
  | name :: rest =>
    match c.hitName name cycle with
    | .ok c => hitNames cycle c rest
    | .error e => (.error e, c)

/-- A committed instruction and the paths that its operands took. -/
def commit (kind : Kind) (cycle : Nat) (paths : List ForwardPath) : Except Failure Unit × Coverage :=
  hitNames cycle c (kind.name :: paths.map ForwardPath.name)

/-- Every hit with its cycle, newest first. -/
def hits : List (CoveragePoint × Int) :=
  c.log.filterMap fun (name, cycle) => (CoveragePoint.ofName? name).map (·, cycle)

def countOf (p : CoveragePoint) : Int :=
  match p with
  | .kind k => (c.kinds.lookup k).getD 0
  | .path q => (c.paths.lookup q).getD 0

/-- The count of a name; a name that means nothing counts zero. -/
def countNamed (name : String) : Int :=
  match CoveragePoint.ofName? name with
  | some p => c.countOf p
  | none => 0

/-- The goals that have not been reached. -/
def missing : List CoveragePoint := c.goals.filter fun p => c.countOf p == 0

def complete : Bool := c.missing.isEmpty

/-- Adds the counters of another run to these. -/
def merge (other : Coverage) : Coverage :=
  { c with
    kinds := other.kinds.foldl (fun counts (k, n) => bump counts k n) c.kinds
    paths := other.paths.foldl (fun counts (p, n) => bump counts p n) c.paths
    firstHit := other.firstHit.foldl (fun firsts (p, cycle) => remember firsts p cycle) c.firstHit }

def value : Value :=
  .record
    [("kinds", .record (c.kinds.map fun (k, n) => (k.name, .int n))),
     ("paths", .record (c.paths.map fun (p, n) => (p.name, .int n))),
     ("missing", .texts (c.missing.map CoveragePoint.name)),
     ("complete", .bool c.complete)]

/-- One counter: a mark if it is zero, its group, its name, its count and its first cycle. -/
def line (group : String) (p : CoveragePoint) (n : Int) : String :=
  let first := match c.firstHit.lookup p with
    | some cycle => if n = 0 then "" else "@" ++ Text.decimal cycle
    | none => ""
  "  " ++ (if n = 0 then "!" else " ") ++ " " ++ Text.padRight 4 group ++ " " ++
    Text.padRight 16 p.name ++ " " ++ Text.padLeft 7 (Text.decimal n) ++ " " ++ first

def rule : String := "  " ++ String.ofList (List.replicate 38 '-')

def report : String :=
  let verdict := if c.complete then "  complete"
    else "  missing: " ++ String.intercalate ", " (c.missing.map CoveragePoint.name)
  String.intercalate "\n"
    (["  Coverage", rule] ++
     c.kinds.map (fun (k, n) => c.line "kind" (.kind k) n) ++
     c.paths.map (fun (p, n) => c.line "path" (.path p) n) ++
     [rule, verdict])

end Coverage

end AccelPipe

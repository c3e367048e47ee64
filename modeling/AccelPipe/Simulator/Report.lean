import AccelPipe.Pipeline.View
import AccelPipe.Simulator.Basic

/-! The report of a run. -/
namespace AccelPipe

structure Report where
  status : RunStatus
  cycles : Nat
  retired : Nat
  /-- Cycles for each retired instruction, in thousandths. -/
  cpi : Nat
  faults : List (FaultKind × Int)
  /-- The messages of all differences from the reference machine. -/
  correctness : List String
  stalls : List (StallCause × Int)
  flushes : Nat
  bankConflicts : Nat
  prefetchHits : Nat
  coverage : Coverage
  registers : List Int

namespace Report

/-- A clean end, with every comparison matching. -/
def passed (r : Report) : Bool := r.status == .exited && r.correctness.isEmpty

def verdict (r : Report) : String := if r.passed then "PASS" else "FAIL"

/-- The report as data; `ratio` says how a number of thousandths is written. -/
def value (r : Report) (ratio : Nat → Value) : Value :=
  .record
    [("status", .text r.status.name),
     ("passed", .bool r.passed),
     ("cycles", .int r.cycles),
     ("retired", .int r.retired),
     ("cpi", ratio r.cpi),
     ("faults", .record (r.faults.map fun (k, n) => (k.name, .int n))),
     ("correctness", .texts r.correctness),
     ("stalls", .record (r.stalls.map fun (c, n) => (c.name, .int n))),
     ("flushes", .int r.flushes),
     ("bank_conflicts", .int r.bankConflicts),
     ("prefetch_hits", .int r.prefetchHits),
     ("coverage", r.coverage.value),
     ("regs", .ints r.registers)]

/-- A quotient as a binary fraction. -/
def fraction (thousandths : Nat) : Value := .real (Binary64.nearest false thousandths 1000)

/-- A quotient with three places. -/
def places (thousandths : Nat) : Value := .text (threePlaces thousandths)

/-- Counters on one line, in the order of their names; nothing if there are none. -/
def counterLine (title : String) (counters : List (String × Int)) : List String :=
  if counters.isEmpty then []
  else
    let sorted := counters.mergeSort fun a b => a.1 ≤ b.1
    ["  " ++ title ++ ": " ++
      String.intercalate ", " (sorted.map fun (name, n) => name ++ "=" ++ Text.decimal n)]

/-- The first ten differences, and how many there are beyond them. -/
def correctnessLines (r : Report) : List String :=
  (r.correctness.take 10).map ("    mismatch: " ++ ·) ++
    if 10 < r.correctness.length then
      ["    ... " ++ Text.decimal (r.correctness.length - 10 : Nat) ++ " more"]
    else []

def text (r : Report) : String :=
  String.intercalate "\n"
    (["  " ++ r.verdict ++ "  status=" ++ r.status.name ++ "  cycles=" ++ Text.decimal r.cycles ++
        "  retired=" ++ Text.decimal r.retired ++ "  CPI=" ++ threePlaces r.cpi,
      "  flushes=" ++ Text.decimal r.flushes ++ "  bank_conflicts=" ++
        Text.decimal r.bankConflicts ++ "  prefetch_hits=" ++ Text.decimal r.prefetchHits] ++
      counterLine "stalls" (r.stalls.map fun (c, n) => (c.name, n)) ++
      counterLine "faults" (r.faults.map fun (k, n) => (k.name, n)) ++
      r.correctnessLines)

end Report

def Simulator.report (s : Simulator) : Report :=
  let p := s.pipeline
  { status := p.status
    cycles := p.cycle
    retired := p.retired
    cpi := p.cpi
    faults := s.faults.foldl (fun counts f => bump counts f.kind 1) []
    correctness := s.correctnessFaults.map Fault.message
    stalls := p.stalls
    flushes := p.flushes
    bankConflicts := p.memory.conflicts
    prefetchHits := p.memory.prefetchHits
    coverage := p.coverage
    registers := p.registers.toList }

end AccelPipe

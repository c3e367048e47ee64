import AccelPipe.Bits
import AccelPipe.Failure

/-! One bank of the data memory: its words, and until when each of its ports is taken. -/
namespace AccelPipe

structure Bank where
  ports : Nat
  latency : Nat
  words : Array Int
  /-- For each port the first cycle at which it is free again. -/
  busyUntil : List Int
  accesses : Nat := 0
  conflicts : Nat := 0

namespace Bank

def fresh (size ports latency : Nat) : Bank where
  ports := ports
  latency := latency
  words := Array.replicate size 0
  busyUntil := List.replicate ports 0

variable (b : Bank)

/-- The first port that is free at a cycle. -/
def freePort (cycle : Int) : Option Nat := b.busyUntil.findIdx? fun t => decide (t ≤ cycle)

def busy (cycle : Int) : Bool := (b.freePort cycle).isNone

def refuse : Bank := { b with conflicts := b.conflicts + 1 }

/-- Takes the first free port for some ticks, and tells whether there was one. -/
def reserve (cycle ticks : Int) : Bool × Bank :=
  match b.freePort cycle with
  | none => (false, b.refuse)
  | some p =>
    (true, { b with busyUntil := b.busyUntil.set p (cycle + ticks), accesses := b.accesses + 1 })

/-- The ticks that are meant by an optional number: none and zero mean the latency. -/
def ticksOr (ticks : Option Int) : Int :=
  match ticks with
  | some t => if t = 0 then b.latency else t
  | none => b.latency

def word (offset : Nat) : Int := b.words.getD offset 0

def setWord (offset : Nat) (value : Int) : Bank :=
  { b with words := b.words.setIfInBounds offset (s32 value) }

/-- The word at an offset that nobody has checked. -/
def read (offset : Int) : Except Failure Int :=
  match place? b.words.size offset with
  | some i => .ok (b.word i)
  | none => .error .indexOutOfRange

def write (offset value : Int) : Except Failure Bank :=
  match place? b.words.size offset with
  | some i => .ok (b.setWord i value)
  | none => .error .indexOutOfRange

def resetPorts : Bank := { b with busyUntil := List.replicate b.ports 0 }

end Bank

end AccelPipe

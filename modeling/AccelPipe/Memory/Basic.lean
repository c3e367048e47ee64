import AccelPipe.Config.Basic
import AccelPipe.Memory.Bank

/-! The data memory: words behind a fixed mapping to banks, with an optional prefetch buffer.
Addresses wrap around at the size of the memory. -/
namespace AccelPipe

structure Memory where
  size : Nat
  mapping : BankMapping
  interleave : Nat
  banks : Array Bank
  prefetchStride : Nat
  prefetchWindow : Nat
  /-- The words that the last fill has copied, by address. -/
  buffer : List (Nat × Int) := []
  prefetchHits : Nat := 0
  prefetchFills : Nat := 0

namespace Memory

def fresh (c : Config) : Memory where
  size := c.memWords
  mapping := c.mapping
  interleave := c.interleave
  banks := Array.replicate c.bankCount
    (Bank.fresh (c.memWords / c.bankCount) c.ports c.memLatency)
  prefetchStride := c.prefetchStride
  prefetchWindow := c.prefetchWindow

/-- Whether the memory of a configuration can be held. -/
def checkRoom (c : Config) : Except Failure Unit :=
  (Room.checkRows c.bankCount (c.memWords / c.bankCount)).mapError .noRoom

variable (m : Memory)

def wrap (addr : Int) : Nat := (addr % m.size).toNat

/-- The bank of an address and the offset within that bank. -/
def locate (addr : Int) : Nat × Nat :=
  let a := m.wrap addr
  let n := m.banks.size
  match m.mapping with
  | .modulo => (a % n, a / n)
  | .stride =>
    let block := a / m.interleave
    (block % n, block / n * m.interleave + a % m.interleave)

def bankOf (addr : Int) : Nat := (m.locate addr).1

def peek (addr : Int) : Int :=
  let (bank, offset) := m.locate addr
  match m.banks[bank]? with
  | some b => b.word offset
  | none => 0

def onBank (i : Nat) (f : Bank → Bank) : Memory := { m with banks := m.banks.modify i f }

/-- Writes a word. A copy in the prefetch buffer follows. -/
def poke (addr value : Int) : Memory :=
  let (bank, offset) := m.locate addr
  let a := m.wrap addr
  let m := m.onBank bank (·.setWord offset value)
  { m with buffer := m.buffer.map fun (k, v) => (k, if k = a then s32 value else v) }

/-- Writes words to consecutive addresses. -/
def load (m : Memory) (addr : Int) : List Int → Memory
  | [] => m
  | w :: ws => load (m.poke addr w) (addr + 1) ws

def readBlock (addrs : List Int) : List Int := addrs.map m.peek

/-- Starts an access: the ticks until it is complete, or none if its bank has no free port. A load
of a buffered word takes one tick and no port. -/
def begin (addr cycle : Int) (isLoad : Bool) : Option Nat × Memory :=
  let a := m.wrap addr
  if isLoad && (m.buffer.lookup a).isSome then
    (some 1, { m with prefetchHits := m.prefetchHits + 1 })
  else
    let i := m.bankOf addr
    match m.banks[i]? with
    | none => (none, m)
    | some b =>
      let latency := b.latency
      let (granted, b) := b.reserve cycle latency
      (if granted then some latency else none, m.onBank i fun _ => b)

/-- The banks that some addresses fall into, in order. -/
def touched (addrs : List Int) : List Nat :=
  let banks := addrs.map m.bankOf
  (List.range m.banks.size).filter banks.contains

def bankBusy (cycle : Int) (i : Nat) : Bool :=
  match m.banks[i]? with
  | some b => b.busy cycle
  | none => false

def reserveEach (cycle ticks : Int) (m : Memory) : List Nat → Memory
  | [] => m
  | i :: rest =>
    reserveEach cycle ticks (m.onBank i fun b => (b.reserve cycle (max ticks b.latency)).2) rest

/-- Takes one port on every bank that some addresses touch, or none at all. The answer lists the
banks that had no free port; it is empty if the ports were taken. -/
def reserveBurst (addrs : List Int) (cycle ticks : Int) : List Nat × Memory :=
  let touched := m.touched addrs
  let blocked := touched.filter (m.bankBusy cycle)
  if blocked.isEmpty then ([], reserveEach cycle ticks m touched)
  else (blocked, blocked.foldl (fun m i => m.onBank i Bank.refuse) m)

/-- The words behind an address that the prefetcher copies. Their addresses are different until
they have gone round the memory; from then on they repeat. -/
def window (addr : Nat) : List (Nat × Int) :=
  let round := m.size / Nat.gcd m.size m.prefetchStride
  (List.range (min m.prefetchWindow round)).map fun k : Nat =>
    let a := m.wrap (addr + (k + 1) * m.prefetchStride)
    (a, m.peek a)

/-- Ends a load: the word, and a fresh prefetch window if the word was not buffered. -/
def completeLoad (addr : Int) : Int × Memory :=
  let a := m.wrap addr
  match m.buffer.lookup a with
  | some v => (v, m)
  | none =>
    let v := m.peek a
    if m.prefetchStride = 0 then (v, m)
    else (v, { m with buffer := m.window a, prefetchFills := m.prefetchFills + 1 })

def completeStore (addr value : Int) : Memory := m.poke addr value

def accesses : Nat := m.banks.toList.foldr (fun b sum => b.accesses + sum) 0

def conflicts : Nat := m.banks.toList.foldr (fun b sum => b.conflicts + sum) 0

/-- All words in the order of their addresses. -/
def snapshot : List Int := (List.range m.size).map fun a : Nat => m.peek a

/-- The words other than zero, with their addresses. -/
def nonzero : List (Nat × Int) :=
  ((List.range m.size).map fun a : Nat => (a, m.peek a)).filter fun (_, v) => v != 0

end Memory

/-- The numbers from `start` on in equal steps, up to before `stop`. -/
def numbersBetween (start stop step : Int) : List Int :=
  let distance := if 0 < step then stop - start else start - stop
  let count := (distance + step.natAbs - 1) / step.natAbs
  (List.range count.toNat).map fun i : Nat => start + i * step

namespace Memory

variable (m : Memory)

/-- One line of a dump: the address of its first word, and its words. -/
def dumpLine (base : Int) (count : Nat) : String :=
  "  " ++ Text.hexColumn 6 (m.wrap base) ++ ": " ++
    String.intercalate " " ((List.range count).map fun i : Nat =>
      Text.hexColumn 8 (u32 (m.peek (base + i))))

/-- Words in hexadecimal, so many to a line. -/
def dump (start count perLine : Int) : Except Failure String :=
  if perLine = 0 then .error (.refused .rowLength)
  else
    let stop := start + count
    .ok (String.intercalate "\n" ((numbersBetween start stop perLine).map fun base =>
      m.dumpLine base (min perLine (stop - base)).toNat))

end Memory

end AccelPipe

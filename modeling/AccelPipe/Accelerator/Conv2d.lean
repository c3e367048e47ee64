import AccelPipe.Accelerator.Basic

/-! The convolution unit: the product of a square table of coefficients with a square of memory
words. The unit keeps the last square it has read. If the next one lies one word further on, only
its last column is read; a store into the kept square makes the unit forget where it came from. -/
namespace AccelPipe

/-- Where a square of memory words lies. -/
structure Origin where
  base : Int
  pitch : Int
deriving DecidableEq

structure Conv2d where
  size : Nat
  memWords : Nat
  kernel : List Int
  /-- The last square, row by row, as it was read. -/
  window : List Int := []
  /-- Where that square lies; absent if it may no longer be used again. -/
  origin : Option Origin := none
  /-- How many squares were completed from the one before. -/
  bufferHits : Nat := 0
  tally : Tally := {}

namespace Conv2d

def loads (ins : Instruction) : Bool := ins.funct3 == 1

def originOf (ops : Operands) : Origin := ⟨ops.value .rs1, ops.value .rs2⟩

variable (u : Conv2d)

/-- Whether a square lies one word behind the kept one. -/
def slides (o : Origin) : Bool :=
  match u.origin with
  | some kept => o == { kept with base := kept.base + 1 }
  | none => false

def reads (ins : Instruction) (ops : Operands) : List Int :=
  if loads ins then rowAddrs (u.size * u.size) (ops.value .rs1 + ins.imm)
  else
    let o := originOf ops
    if u.slides o then
      (List.range u.size).map fun i : Nat => o.base + i * o.pitch + u.size - 1
    else squareAddrs u.size o.base o.pitch

/-- The rows of the kept square without their first words, each with a new last word. -/
def shifted (words : List Int) : List Int :=
  (List.range u.size).flatMap fun i =>
    (u.window.drop (i * u.size + 1)).take (u.size - 1) ++ (words.drop i).take 1

/-- Puts a square of words into the buffer and multiplies it with the kernel. -/
def convolve (p : Precision) (o : Origin) (window : List Int) (hits : Nat) :
    UnitResult × Conv2d :=
  let out := p.outcome (dot u.kernel (window.map p.operand)) none
  (out.result,
   { u with window, origin := some o, bufferHits := u.bufferHits + hits,
            tally := out.counted u.tally })

/-- Executes an operation on the words it reads. A slide needs a word for each row. -/
def execute (p : Precision) (ins : Instruction) (ops : Operands) (words : List Int) :
    Except Failure UnitResult × Conv2d :=
  if loads ins then
    (.ok ⟨words.length, false⟩,
     { u with kernel := words.map p.operand, tally := u.tally.count false })
  else
    let o := originOf ops
    if u.slides o then
      if words.length < u.size then (.error .indexOutOfRange, u)
      else
        let (result, u) := u.convolve p o (u.shifted words) 1
        (.ok result, u)
    else
      let (result, u) := u.convolve p o words 0
      (.ok result, u)

def invalidate : Conv2d := { u with origin := none }

/-- The addresses of a square, as they lie in memory. -/
def covered (o : Origin) : List Int :=
  (squareAddrs u.size o.base o.pitch).map (· % (u.memWords : Int))

/-- A store has reached memory at an address. -/
def snoop (addr : Int) : Conv2d :=
  match u.origin with
  | some o => if (u.covered o).contains addr then u.invalidate else u
  | none => u

/-- The kernel and the number of completed squares outlive a reset. -/
def reset : Conv2d := { u with window := [], origin := none, tally := {} }

def snapshot : Value :=
  .record
    [("kernel", .ints u.kernel),
     ("window", .ints u.window),
     ("window_base", .orNull (fun o => .int o.base) u.origin),
     ("buffer_hits", .int u.bufferHits)]

end Conv2d

end AccelPipe

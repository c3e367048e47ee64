import AccelPipe.Accelerator.Basic
import AccelPipe.Config.Basic

/-! The pooling unit: the greatest or the mean of a square of memory words. A sliding operation
takes the square that lies one stride behind the previous one. -/
namespace AccelPipe

structure Pool where
  size : Nat
  stride : Nat
  mode : PoolMode
  rounding : Rounding
  /-- Where a sliding operation starts, and its pitch. -/
  nextBase : Int := 0
  pitch : Int
  /-- The last square at operand width. -/
  window : List Int := []
  tally : Tally := {}

namespace Pool

variable (u : Pool)

/-- Base and pitch of the square of an operation. -/
def origin (ins : Instruction) (ops : Operands) : Int × Int :=
  if ins.slides then (u.nextBase, u.pitch) else (ops.value .rs1, ops.value .rs2)

def reads (ins : Instruction) (ops : Operands) : List Int :=
  let (base, pitch) := u.origin ins ops
  squareAddrs u.size base pitch

def modeOf (ins : Instruction) : PoolMode :=
  match ins.funct3 with
  | 1 => .max
  | 2 => .avg
  | _ => u.mode

/-- The greatest or the mean of some words; there has to be one. -/
def reduce (mode : PoolMode) (words : List Int) : Except Failure Int :=
  match mode, words with
  | .max, [] => .error (.refused .emptyWindow)
  | .max, w :: ws => .ok (ws.foldl max w)
  | .avg, [] => .error .divisionByZero
  | .avg, ws => .ok (average (total ws) ws.length (u.rounding == .nearest))

/-- Executes an operation on the words it reads. The unit moves on to the next square even if
there are no words to reduce. -/
def execute (p : Precision) (ins : Instruction) (ops : Operands) (words : List Int) :
    Except Failure UnitResult × Pool :=
  let (base, pitch) := u.origin ins ops
  let window := words.map p.operand
  let u := { u with nextBase := base + u.stride, pitch, window }
  match u.reduce (u.modeOf ins) window with
  | .error e => (.error e, u)
  | .ok total =>
    let out := p.outcome total none
    (.ok out.result, { u with tally := out.counted u.tally })

def reset : Pool := { u with nextBase := 0, pitch := u.size, window := [], tally := {} }

def snapshot : Value :=
  .record
    [("window", .ints u.window), ("next_base", .int u.nextBase), ("pitch", .int u.pitch)]

end Pool

end AccelPipe

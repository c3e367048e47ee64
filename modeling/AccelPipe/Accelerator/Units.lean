import AccelPipe.Accelerator.Conv2d
import AccelPipe.Accelerator.Fir
import AccelPipe.Accelerator.Mac
import AccelPipe.Accelerator.Pool
import AccelPipe.Accelerator.Relu

/-! The five accelerator units of a run. -/
namespace AccelPipe

structure Units where
  precision : Precision
  mac : Mac := {}
  relu : Relu := {}
  conv2d : Conv2d
  fir : Fir
  pool : Pool

namespace Units

def fresh (c : Config) : Units :=
  let p := c.precision
  { precision := p
    conv2d :=
      { size := c.kernelSize, memWords := c.memWords, kernel := c.kernelTable.map p.operand }
    fir :=
      { taps := c.firTaps, coefficients := c.firTable.map p.operand,
        samples := List.replicate c.firTaps 0 }
    pool :=
      { size := c.poolWindow, stride := c.poolStride, mode := c.poolMode,
        rounding := c.poolRounding, pitch := c.poolWindow } }

variable (u : Units)

/-- The ticks that a unit works on an operation. -/
def latency : Accelerator → Nat
  | .mac | .relu => 1
  | .conv2d => u.precision.beats (u.conv2d.size * u.conv2d.size)
  | .fir => u.precision.beats u.fir.taps
  | .pool => u.precision.beats (u.pool.size * u.pool.size)

/-- The addresses of the memory words that an operation reads, in the order in which it takes
them. -/
def reads (a : Accelerator) (ins : Instruction) (ops : Operands) : List Int :=
  match a with
  | .mac | .relu => []
  | .conv2d => u.conv2d.reads ins ops
  | .fir => u.fir.reads ins ops
  | .pool => u.pool.reads ins ops

def execute (a : Accelerator) (ins : Instruction) (ops : Operands) (words : List Int) :
    Except Failure UnitResult × Units :=
  match a with
  | .mac =>
    let (result, mac) := u.mac.execute u.precision ins ops
    (result, { u with mac })
  | .relu =>
    let (result, relu) := u.relu.execute u.precision ins ops
    (.ok result, { u with relu })
  | .conv2d =>
    let (result, conv2d) := u.conv2d.execute u.precision ins ops words
    (result, { u with conv2d })
  | .fir =>
    let (result, fir) := u.fir.execute u.precision ins ops words
    (.ok result, { u with fir })
  | .pool =>
    let (result, pool) := u.pool.execute u.precision ins ops words
    (result, { u with pool })

/-- A store has reached memory; only the convolution unit keeps memory words. -/
def snoop (addr : Int) : Units := { u with conv2d := u.conv2d.snoop addr }

def tally : Accelerator → Tally
  | .mac => u.mac.tally
  | .relu => u.relu.tally
  | .conv2d => u.conv2d.tally
  | .fir => u.fir.tally
  | .pool => u.pool.tally

def reset : Accelerator → Units
  | .mac => { u with mac := {} }
  | .relu => { u with relu := {} }
  | .conv2d => { u with conv2d := u.conv2d.reset }
  | .fir => { u with fir := u.fir.reset }
  | .pool => { u with pool := u.pool.reset }

def snapshot : Accelerator → Value
  | .mac => u.mac.snapshot
  | .relu => .record []
  | .conv2d => u.conv2d.snapshot
  | .fir => u.fir.snapshot
  | .pool => u.pool.snapshot

/-- The state of every unit by name. -/
def state : List (String × Value) :=
  Accelerator.all.map fun a => (a.kind.name, u.snapshot a)

end Units

end AccelPipe

import AccelPipe.Config.Basic
import AccelPipe.Stimulus.Draw
import AccelPipe.Stimulus.Line

/-! Random streams of instructions. A stream mixes all kinds of operation and uses its registers
densely, so that all hazards come about. Jumps go forward only and never past the closing
instruction, so every stream ends.

Registers 1 to 15 hold data. Register 20 points into the data, 21 holds the distance between two
rows, 22 points to the coefficients, and 25 takes link values. -/
namespace AccelPipe.Stimulus

def dataBase : Nat := 64
def dataWords : Nat := 128
def coefficientBase : Nat := 0
def rowPitch : Nat := 8

def dataRegisters : List Nat := (List.range 15).map (· + 1)

/-- The words in front of the first line of a stream. -/
def headWords : Nat := 3 + dataRegisters.length

/-- A stream in the making. -/
structure Stream where
  /-- The newest line comes first. -/
  lines : List Line := []
  count : Nat := 0
  /-- The registers that were written last, the newest first. -/
  recent : List Nat := []
  /-- The number of lines when the data pointer was last set. -/
  lastReset : Nat := 0

abbrev Build := StateT Stream Draw

def draw {α : Type} (d : Draw α) : Build α := StateT.lift d

def number (low high : Int) : Build Part := return .number (← draw (.between low high))

def name (first : String) (rest : List String) : Build String := draw (.choice first rest)

def anyRegister : Draw Nat := .choice 1 (dataRegisters.drop 1)

/-- A register to read; registers that have just been written are favoured. -/
def sourceRegister : Build Part := do
  match (← get).recent with
  | [] => return .register (← draw anyRegister)
  | r :: rest =>
    if ← draw (.chance 6 10) then return .register (← draw (.choice r (rest.take 2)))
    else return .register (← draw anyRegister)

/-- A register to write. -/
def targetRegister : Build Part := do
  let r ← draw anyRegister
  modify fun s => { s with recent := (r :: s.recent).take 4 }
  return .register r

def emit (name : String) (parts : List Part) : Build Unit :=
  modify fun s => { s with lines := ⟨name, parts⟩ :: s.lines, count := s.count + 1 }

def offset : Build Part := do
  let n ← draw (.index dataWords .done)
  return .memory n 20

def arithmetic : Build Unit := do
  let op ← name "add" ["sub", "sll", "slt", "sltu", "xor", "srl", "sra", "or", "and"]
  let rd ← targetRegister
  let a ← sourceRegister
  let b ← sourceRegister
  emit op [rd, a, b]

def immediate : Build Unit := do
  let n ← draw (.fraction .done)
  if Draw.isBelow 5 100 n then
    let rd ← targetRegister
    emit "auipc" [rd, ← number 0 15]
  else if Draw.isBelow 3 10 n then
    let op ← name "slli" ["srli", "srai"]
    let rd ← targetRegister
    let a ← sourceRegister
    emit op [rd, a, ← number 0 31]
  else
    let op ← name "addi" ["slti", "sltiu", "xori", "ori", "andi"]
    let rd ← targetRegister
    let a ← sourceRegister
    emit op [rd, a, ← number (-2048) 2047]

def load : Build Unit := do
  let rd ← targetRegister
  emit "lw" [rd, ← offset]

def store : Build Unit := do
  let value ← sourceRegister
  emit "sw" [value, ← offset]

/-- The distance of a jump over at most `limit` lines of those that are left. -/
def skip (limit left : Nat) : Build Int := do
  let lines ← draw (.between 1 (min limit (left - 1) : Nat))
  return 4 * (lines + 1)

def branch (left : Nat) : Build Unit := do
  if left < 2 then arithmetic
  else
    let distance ← skip 3 left
    let op ← name "beq" ["bne", "blt", "bge", "bltu", "bgeu"]
    let a ← sourceRegister
    let b ← sourceRegister
    emit op [a, b, .number distance]

/-- A jump to a distance, or to the address behind the next instruction if that is small enough. -/
def jump (left : Nat) : Build Unit := do
  if left < 2 then arithmetic
  else
    let behind := 4 * (headWords + (← get).count) + 8
    let absolute ← if behind ≤ 2047 then draw (.chance 4 10) else pure false
    if absolute then
      emit "jalr" [.register 25, .memory behind 0]
      arithmetic
    else
      let distance ← skip 2 left
      let rd ← targetRegister
      emit "jal" [rd, .number distance]

def multiply : Build Unit := do
  let op ← name "mac" ["mac.w", "maca", "macz"]
  let rd ← targetRegister
  let a ← sourceRegister
  let b ← sourceRegister
  emit op [rd, a, b]

def rectify : Build Unit := do
  if ← draw (.chance 3 10) then
    let rd ← targetRegister
    let a ← sourceRegister
    emit "relu.b" [rd, a, ← number 0 2047]
  else
    let rd ← targetRegister
    let a ← sourceRegister
    emit "relu" [rd, a]

/-- A convolution at the same place, or a little further on. -/
def convolve : Build Unit := do
  let distance ← draw (.choice 0 [1, 1, 2])
  emit "addi" [.register 20, .register 20, .number distance]
  let rd ← targetRegister
  emit "conv2d" [rd, .register 20, .register 21]

def filter : Build Unit := do
  if ← draw (.chance 1 10) then
    let rd ← targetRegister
    emit "fir.clr" [rd]
  else
    let rd ← targetRegister
    let a ← sourceRegister
    emit "fir" [rd, a]

def pool : Build Unit := do
  let op ← name "pool" ["pool.max", "pool.avg"]
  if ← draw (.chance 4 10) then
    let rd ← targetRegister
    emit (op ++ ".n") [rd]
  else
    let rd ← targetRegister
    emit op [rd, .register 20, .register 21]

def coefficients : Build Unit := do
  let op ← if ← draw (.chance 5 10) then pure "conv2d.ld" else pure "fir.ld"
  let rd ← targetRegister
  emit op [rd, .memory 0 22]

inductive Pattern where
  | arithmetic
  | immediate
  | load
  | store
  | branch
  | jump
  | multiply
  | rectify
  | convolve
  | filter
  | pool
  | coefficients

/-- How often each pattern occurs, in proportion. -/
def weights : List (Pattern × Nat) :=
  [(.arithmetic, 14), (.immediate, 10), (.load, 8), (.store, 6), (.branch, 5), (.jump, 2),
   (.multiply, 8), (.rectify, 5), (.convolve, 3), (.filter, 4), (.pool, 5), (.coefficients, 1)]

/-- Emits a pattern; `left` lines are still wanted. -/
def Pattern.emit (left : Nat) : Pattern → Build Unit
  | arithmetic => Stimulus.arithmetic
  | immediate => Stimulus.immediate
  | load => Stimulus.load
  | store => Stimulus.store
  | branch => Stimulus.branch left
  | jump => Stimulus.jump left
  | multiply => Stimulus.multiply
  | rectify => Stimulus.rectify
  | convolve => Stimulus.convolve
  | filter => Stimulus.filter
  | pool => Stimulus.pool
  | coefficients => Stimulus.coefficients

/-- Sets the data pointer back after thirty-two lines, so that it stays within the data. -/
def resetPointer : Build Unit := do
  let s ← get
  if 32 ≤ s.count - s.lastReset then
    emit "li" [.register 20, .number dataBase]
    modify fun s => { s with lastReset := s.count }

/-- Emits patterns until there are enough lines. Every pattern emits at least one, so that `fuel`
may be the number of lines. -/
def patterns (length : Nat) (fuel : Nat) : Build Unit := do
  match fuel with
  | 0 => return
  | fuel + 1 =>
    let s ← get
    if length ≤ s.count then return
    let pattern ← draw (.weighted .arithmetic weights)
    pattern.emit (length - s.count)
    resetPointer
    patterns length fuel

/-- The lines in front of a stream, which set all its registers. -/
def head : Draw (List Line) := do
  let pointers : List Line :=
    [⟨"li", [.register 20, .number dataBase]⟩, ⟨"li", [.register 21, .number rowPitch]⟩,
     ⟨"li", [.register 22, .number coefficientBase]⟩]
  let data ← dataRegisters.mapM fun r => do
    return (Line.mk "li" [.register r, .number (← Draw.between (-2048) 2047)])
  return pointers ++ data

/-- A data word: mostly small enough for sums to fit, sometimes one of the two extremes. -/
def value (bits : Nat) : Draw Int := do
  if ← Draw.chance 2 10 then Draw.choice (Nat.pow 2 (bits - 1) - 1) [-Nat.pow 2 (bits - 1)]
  else Draw.between (-Nat.pow 2 (bits - 2)) (Nat.pow 2 (bits - 2))

/-- A stream before it is assembled, with its data. -/
structure Draft where
  lines : List Line
  data : List (Int × List Int)

def draft (length : Nat) (c : Config) : Draw Draft := do
  let head ← head
  let (_, s) ← (patterns length length).run {}
  let count := max (c.kernelSize * c.kernelSize) c.firTaps
  let table ← (List.range count).mapM fun _ => Draw.between (-4) 4
  let words ← (List.range (dataWords + rowPitch * 8)).mapM fun _ => value c.operandType.bits
  return ⟨head ++ s.lines.reverse ++ [⟨"ecall", []⟩],
    [(coefficientBase, table), (dataBase, words)]⟩

end AccelPipe.Stimulus

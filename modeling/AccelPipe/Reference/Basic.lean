import AccelPipe.Config.Basic
import AccelPipe.Image
import AccelPipe.Instruction.Decode
import AccelPipe.Commit
import AccelPipe.Registers

/-! The reference machine: sequential execution, one instruction at a time and without timing. It
has registers, memory and accelerator state of its own, memory being one flat array. Arithmetic is
that of integers, cut to 32 bits when it is written; addresses of windows are numbers of 64 bits,
and a window that starts outside of them ends the instruction. -/
namespace AccelPipe

structure Reference where
  precision : Precision
  program : Image
  registers : Registers := {}
  memory : Array Int
  kernelSize : Nat
  kernel : List Int
  coefficients : List Int
  samples : List Int
  macAcc : Int := 0
  poolSize : Nat
  poolStride : Nat
  poolMode : PoolMode
  poolRounding : Rounding
  poolNext : Int := 0
  poolPitch : Int
  /-- The address of the instruction that sequential execution commits next. -/
  expectedPc : Int
  checked : Nat := 0
  mismatches : Nat := 0

/-- What one instruction does: its register result, its store, and where execution goes on. -/
structure Effect where
  value : Option Int := none
  store : Option Store := none
  nextPc : Nat

namespace Reference

def fresh (c : Config) (program : Image) : Reference :=
  let p := c.precision
  { precision := p
    program
    memory := Array.replicate c.memWords 0
    kernelSize := c.kernelSize
    kernel := c.kernelTable.map p.operand
    coefficients := c.firTable.map p.operand
    samples := List.replicate c.firTaps 0
    poolSize := c.poolWindow
    poolStride := c.poolStride
    poolMode := c.poolMode
    poolRounding := c.poolRounding
    poolPitch := c.poolWindow
    expectedPc := c.startPc }

/-- Whether the memory of the reference machine can be held; a word takes eight bytes. -/
def checkRoom (c : Config) : Except Failure Unit :=
  if Room.maxIndex < c.memWords then .error (.refused .dimension)
  else if Room.maxIndex < 8 * c.memWords then .error (.refused .arraySize)
  else if Room.maxWords ≤ c.memWords then .error (.noRoom .reference)
  else .ok ()

def wrap (r : Reference) (addr : Int) : Nat := (addr % r.memory.size).toNat

def peek (r : Reference) (addr : Int) : Int := r.memory.getD (r.wrap addr) 0

def poke (r : Reference) (addr value : Int) : Reference :=
  let a := r.wrap addr
  { r with memory := r.memory.setIfInBounds a (s32 value) }

/-- Writes words to consecutive addresses. -/
def load (r : Reference) (addr : Int) : List Int → Reference
  | [] => r
  | w :: ws => load (r.poke addr w) (addr + 1) ws

/-- The operations on two signed 32-bit numbers. Their results may be larger. -/
def operation? : Mnemonic → Option (Int → Int → Int)
  | .add => some fun a b => a + b
  | .sub => some fun a b => a - b
  | .sll => some fun a b => a <<< (bitAnd b 31).toNat
  | .slt => some fun a b => if a < b then 1 else 0
  | .sltu => some fun a b => if u32 a < u32 b then 1 else 0
  | .xor => some bitXor
  | .srl => some fun a b => u32 a >>> (bitAnd b 31).toNat
  | .sra => some fun a b => a >>> (bitAnd b 31).toNat
  | .or => some bitOr
  | .and => some bitAnd
  | _ => none

/-- The operation that an instruction with an immediate stands for. -/
def registerForm? : Mnemonic → Option Mnemonic
  | .addi => some .add
  | .slti => some .slt
  | .sltiu => some .sltu
  | .xori => some .xor
  | .ori => some .or
  | .andi => some .and
  | .slli => some .sll
  | .srli => some .srl
  | .srai => some .sra
  | _ => none

/-- The result of an arithmetic instruction for two register values, before it is cut to 32 bits. An
instruction that is in neither table fails. -/
def arithmeticResult (ins : Instruction) (a b pc : Int) : Except Failure Int :=
  match ins.mnemonic with
  | .lui => .ok ins.imm
  | .auipc => .ok (pc + ins.imm)
  | m =>
    match operation? m with
    | some f => .ok (f a b)
    | none =>
      match registerForm? m >>= operation? with
      | some f => .ok (f a ins.imm)
      | none => .error .unknownName

/-- The conditions of branches. -/
def condition? : Mnemonic → Option (Int → Int → Bool)
  | .beq => some fun a b => a == b
  | .bne => some fun a b => a != b
  | .blt => some fun a b => decide (a < b)
  | .bge => some fun a b => decide (b ≤ a)
  | .bltu => some fun a b => decide (u32 a < u32 b)
  | .bgeu => some fun a b => decide (u32 b ≤ u32 a)
  | _ => none

/-- Where a branch or jump goes, and its link value. A branch without a condition fails. -/
def jump (ins : Instruction) (a b pc : Int) : Except Failure Effect :=
  let following := u32 (pc + 4)
  match ins.mnemonic with
  | .jal => .ok ⟨some (s32 (pc + 4)), none, u32 (pc + ins.imm)⟩
  | .jalr => .ok ⟨some (s32 (pc + 4)), none, (bitAnd (u32 (a + ins.imm)) (~~~1)).toNat⟩
  | m =>
    match condition? m with
    | some holds => .ok ⟨none, none, if holds a b then u32 (pc + ins.imm) else following⟩
    | none => .error .unknownName

/-- An exact sum, at accumulator width and then as a register value. -/
def narrow (r : Reference) (total : Int) (rule : Option Bool) : Int × Int :=
  let acc := (r.precision.accumulate total rule).1
  (acc, (r.precision.result acc rule).1)

def multiply (r : Reference) (ins : Instruction) (a b : Int) : Int × Reference :=
  let product := r.precision.operand a * r.precision.operand b
  let (acc, value) := match ins.mnemonic with
    | .mac => r.narrow (r.registers.read ins.rd + product) (some true)
    | .macW => r.narrow (r.registers.read ins.rd + product) (some false)
    | .maca => r.narrow (r.macAcc + product) none
    | _ => r.narrow product none
  (value, { r with macAcc := acc })

def rectify (r : Reference) (ins : Instruction) (a : Int) : Int :=
  let y := max 0 (r.precision.operand a)
  if ins.mnemonic = .reluB then min y (max 0 ins.imm) else y

/-- Whether a number can be kept in 64 bits. -/
def fits64 (v : Int) : Bool := -0x8000000000000000 ≤ v && v < 0x8000000000000000

/-- A square of memory words at operand width, the one in row `t / size` and column `t % size`
coming in place `t`. Its addresses wrap around at 64 bits before they wrap around at the size of
the memory. -/
def square (r : Reference) (size : Nat) (base pitch : Int) : List Int :=
  (List.range (size * size)).map fun t : Nat =>
    let addr := base + (t / size : Nat) * pitch + (t % size : Nat)
    r.precision.operand (r.peek (addr.bmod 0x10000000000000000))

/-- Consecutive memory words at operand width. -/
def row (r : Reference) (count : Nat) (base : Int) : List Int :=
  (List.range count).map fun t : Nat => r.precision.operand (r.peek (base + t))

def convolve (r : Reference) (ins : Instruction) (a b : Int) : Int × Reference :=
  if ins.mnemonic = .conv2dLd then
    (r.kernelSize * r.kernelSize,
     { r with kernel := r.row (r.kernelSize * r.kernelSize) (a + ins.imm) })
  else ((r.narrow (dot r.kernel (r.square r.kernelSize a b)) none).2, r)

def filter (r : Reference) (ins : Instruction) (a : Int) : Int × Reference :=
  let taps := r.samples.length
  match ins.mnemonic with
  | .firLd => (taps, { r with coefficients := r.row taps (a + ins.imm) })
  | .firClr => (0, { r with samples := List.replicate taps 0 })
  | _ =>
    let samples := (r.precision.operand a :: r.samples).take taps
    ((r.narrow (dot r.coefficients samples) none).2, { r with samples })

def poolModeOf (r : Reference) (ins : Instruction) : PoolMode :=
  match ins.mnemonic with
  | .poolMax => .max
  | .poolAvg => .avg
  | _ => r.poolMode

/-- The largest word or the mean of a window. The next window is settled before the words of this
one are read. -/
def pool (r : Reference) (ins : Instruction) (a b : Int) : Except Failure Int × Reference :=
  let (base, pitch) := if ins.slides then (r.poolNext, r.poolPitch) else (a, b)
  let r := { r with poolNext := base + r.poolStride, poolPitch := pitch }
  if !fits64 base then (.error .tooWide, r)
  else
    let words := r.square r.poolSize base pitch
    let total := match r.poolModeOf ins with
      | .max => words.max?.getD 0
      | .avg => average (total words) words.length (r.poolRounding == .nearest)
    (.ok (r.narrow total none).2, r)

/-- What an instruction does to the accelerator state, and its effect. -/
def effect (r : Reference) (ins : Instruction) (pc : Int) : Except Failure Effect × Reference :=
  let a := r.registers.read ins.rs1
  let b := r.registers.read ins.rs2
  let following := u32 (pc + 4)
  let result (value : Int) : Effect := ⟨some (s32 value), none, following⟩
  let done (value : Int) : Except Failure Effect := .ok (result value)
  match ins.kind with
  | .alu => ((arithmeticResult ins a b pc).map result, r)
  | .load => (done (r.peek (a + ins.imm)), r)
  | .store => (.ok ⟨none, some ⟨r.wrap (a + ins.imm), b⟩, following⟩, r)
  | .branch => (jump ins a b pc, r)
  | .mac => (r.multiply ins a b).map done id
  | .relu => (done (r.rectify ins a), r)
  | .conv2d => (r.convolve ins a b).map done id
  | .fir => (r.filter ins a).map done id
  | .pool => (r.pool ins a b).map (·.map result) id
  | .system | .illegal => (.ok ⟨none, none, following⟩, r)

def writeBack (r : Reference) (ins : Instruction) (value : Option Int) : Reference :=
  match value with
  | some v => if ins.writesRd then { r with registers := r.registers.write ins.rd v } else r
  | none => r

/-- Writes what an instruction stores and what it returns. -/
def apply (r : Reference) (ins : Instruction) (e : Effect) : Reference :=
  let r := match e.store with
    | some s => r.poke s.addr s.value
    | none => r
  r.writeBack ins e.value

/-- Executes an instruction that lies at an address. One that fails changes no more than the state
of the accelerators. -/
def execute (r : Reference) (ins : Instruction) (pc : Int) : Except Failure Effect × Reference :=
  match r.effect ins pc with
  | (.ok e, r) => (.ok e, r.apply ins e)
  | (.error f, r) => (.error f, r)

end Reference

end AccelPipe

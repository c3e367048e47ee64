import AccelPipe.Config.Fault
import AccelPipe.Precision

/-! What is fixed for the lifetime of a run: precision, geometry of the memory, tables of the
accelerator units and the cycle budget. -/
namespace AccelPipe

inductive OperandType where
  | int8
  | int16
  | int32
deriving DecidableEq

namespace OperandType

def name : OperandType → String
  | int8 => "INT8"
  | int16 => "INT16"
  | int32 => "INT32"

def bits : OperandType → Nat
  | int8 => 8
  | int16 => 16
  | int32 => 32

/-- In the order in which they are listed to a reader. -/
def all : List OperandType := [int16, int32, int8]

end OperandType

inductive OverflowRule where
  | clamp
  | wrap
deriving DecidableEq

def OverflowRule.name : OverflowRule → String
  | .clamp => "clamp"
  | .wrap => "wrap"

inductive BankMapping where
  | modulo
  | stride
deriving DecidableEq

def BankMapping.name : BankMapping → String
  | .modulo => "modulo"
  | .stride => "stride"

inductive PoolMode where
  | max
  | avg
deriving DecidableEq

def PoolMode.name : PoolMode → String
  | .max => "max"
  | .avg => "avg"

inductive Rounding where
  | floor
  | nearest
deriving DecidableEq

def Rounding.name : Rounding → String
  | .floor => "floor"
  | .nearest => "nearest"

/-- A kernel is given as rows, as single coefficients, or as both. -/
inductive KernelPart where
  | row (coefficients : List Int)
  | single (coefficient : Int)
deriving DecidableEq

def KernelPart.coefficients : KernelPart → List Int
  | .row cs => cs
  | .single c => [c]

def KernelPart.value : KernelPart → Value
  | .row cs => .ints cs
  | .single c => .int c

structure Config where
  operandType : OperandType := .int32
  /-- Absent: as wide as the operands. -/
  accWidth : Option Nat := none
  overflow : OverflowRule := .clamp
  bankCount : Nat := 4
  ports : Nat := 1
  memLatency : Nat := 1
  mapping : BankMapping := .modulo
  interleave : Nat := 1
  memWords : Nat := 4096
  /-- Zero: no prefetching. -/
  prefetchStride : Nat := 0
  prefetchWindow : Nat := 0
  kernelSize : Nat := 3
  kernel : Option (List KernelPart) := none
  firTaps : Nat := 4
  firCoeffs : Option (List Int) := none
  poolMode : PoolMode := .max
  poolWindow : Nat := 2
  poolStride : Nat := 2
  poolRounding : Rounding := .floor
  maxCycles : Nat := 100000
  startPc : Int := 0
  trace : Bool := true
  /-- Whether every commit is checked against the reference machine. -/
  checkReference : Bool := true
deriving DecidableEq

namespace Config

variable (c : Config)

def precision : Precision where
  operandBits := c.operandType.bits
  accBits := c.accWidth.getD c.operandType.bits
  saturate := c.overflow == .clamp

/-- The kernel row by row; without a table, the one that copies the middle of the window. -/
def kernelTable : List Int :=
  match c.kernel with
  | some parts => parts.flatMap KernelPart.coefficients
  | none => (List.replicate (c.kernelSize * c.kernelSize) 0).set (c.kernelSize * c.kernelSize / 2) 1

/-- The filter coefficients; without a table, those that pass the newest sample on. -/
def firTable : List Int :=
  match c.firCoeffs with
  | some coefficients => coefficients
  | none => 1 :: List.replicate (c.firTaps - 1) 0

/-- All fields by name, in a fixed order. -/
def settings : List (String × Value) :=
  [("precision", .text c.operandType.name),
   ("acc_width", .orNull (fun n : Nat => .int n) c.accWidth),
   ("saturation", .text c.overflow.name),
   ("bank_count", .int c.bankCount),
   ("ports", .int c.ports),
   ("mem_latency", .int c.memLatency),
   ("bank_mapping", .text c.mapping.name),
   ("interleave", .int c.interleave),
   ("mem_words", .int c.memWords),
   ("prefetch_stride", .int c.prefetchStride),
   ("prefetch_window", .int c.prefetchWindow),
   ("kernel_size", .int c.kernelSize),
   ("kernel", .orNull (fun parts => .list (parts.map KernelPart.value)) c.kernel),
   ("fir_taps", .int c.firTaps),
   ("fir_coeffs", .orNull .ints c.firCoeffs),
   ("pool_mode", .text c.poolMode.name),
   ("pool_window", .int c.poolWindow),
   ("pool_stride", .int c.poolStride),
   ("pool_rounding", .text c.poolRounding.name),
   ("max_cycles", .int c.maxCycles),
   ("start_pc", .int c.startPc),
   ("trace", .bool c.trace),
   ("check_golden", .bool c.checkReference)]

/-- The settings as lines of two columns. -/
def lines : List String :=
  c.settings.map fun (name, value) => "  " ++ Text.padRight 16 name ++ " " ++ value.plain

end Config

end AccelPipe

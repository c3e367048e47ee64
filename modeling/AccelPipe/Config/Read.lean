import AccelPipe.Config.Basic
import AccelPipe.Text.Case

/-! Settings to a configuration. First the kind of every value is checked, then each field against
the others, in a fixed order; the first complaint is the answer. -/
namespace AccelPipe

abbrev Settings := List (String × Value)

namespace Settings

def integerNames : List String :=
  ["acc_width", "bank_count", "ports", "mem_latency", "interleave", "mem_words",
   "prefetch_stride", "prefetch_window", "kernel_size", "fir_taps",
   "pool_window", "pool_stride", "max_cycles", "start_pc"]

def textNames : List String :=
  ["precision", "saturation", "bank_mapping", "pool_mode", "pool_rounding"]

def truthNames : List String := ["trace", "check_golden"]

def defaults : Settings := Config.settings {}

variable (s : Settings)

def get (name : String) : Value := (s.lookup name).getD .null

/-- The integer of a field that has passed the check of kinds. -/
def int (name : String) : Int :=
  match s.get name with
  | .int n => n
  | _ => 0

def nat (name : String) : Nat := (s.int name).toNat

def text (name : String) : String :=
  match s.get name with
  | .text t => t
  | _ => ""

def truth (name : String) : Bool :=
  match s.get name with
  | .bool b => b
  | _ => false

def items (name : String) : Option (List Value) :=
  match s.get name with
  | .list vs => some vs
  | _ => none

/-- A complaint that cannot be written down is none. -/
def reject {α : Type} (field : String) (complaint : Complaint) : Except ConfigError α :=
  match complaint.obstacle? with
  | none => .error (.fault ⟨field, complaint⟩)
  | some obstacle => .error (.unwritable obstacle)

def require (condition : Bool) (field : String) (complaint : Complaint) :
    Except ConfigError Unit :=
  if condition then .ok () else reject field complaint

def isInteger : Value → Bool
  | .int _ => true
  | _ => false

def isText : Value → Bool
  | .text _ => true
  | _ => false

def isTruth : Value → Bool
  | .bool _ => true
  | _ => false

def isNull : Value → Bool
  | .null => true
  | _ => false

/-- Whether a part of a table consists of integers; only a kernel may have rows. -/
def isCoefficients (rows : Bool) (part : Value) : Bool :=
  match part with
  | .list vs => rows && vs.all isInteger
  | v => isInteger v

def checkTable (name : String) (rows : Bool) : Except ConfigError Unit :=
  match s.get name with
  | .null => .ok ()
  | .list (v :: vs) =>
    (v :: vs).forM fun part =>
      require (isCoefficients rows part) name (.notCoefficients part)
  | v => reject name (.notTable v)

/-- The kind of every value. -/
def checkKinds : Except ConfigError Unit := do
  integerNames.forM fun name =>
    require (isInteger (s.get name) || (name == "acc_width" && isNull (s.get name)))
      name (.notInteger (s.get name))
  textNames.forM fun name => require (isText (s.get name)) name (.notText (s.get name))
  truthNames.forM fun name => require (isTruth (s.get name)) name (.notTruth (s.get name))
  s.checkTable "kernel" true
  s.checkTable "fir_coeffs" false

/-- The option that a text names. -/
def choose {α : Type} (name : String) (options : List α) (label : α → String) :
    Except ConfigError α :=
  match options.find? fun o => label o == s.text name with
  | some o => .ok o
  | none => reject name (.notOneOf (options.map label) (s.text name))

/-- A coefficient, or a row of a kernel, that has passed the check of kinds. -/
def coefficient : Value → Int
  | .int n => n
  | _ => 0

def part : Value → KernelPart
  | .list row => .row (row.map coefficient)
  | v => .single (coefficient v)

def parts : Option (List KernelPart) := (s.items "kernel").map (·.map part)

def coefficients : Option (List Int) := (s.items "fir_coeffs").map (·.map coefficient)

/-- All parts are rows of one size. -/
def checkRows (size : Nat) : List KernelPart → Except ConfigError Unit
  | [] => .ok ()
  | .row cs :: rest =>
    if cs.length = size then checkRows size rest else reject "kernel" .kernelRows
  | .single _ :: _ => .error .mixedRows

def startsWithRow : List KernelPart → Bool
  | .row _ :: _ => true
  | _ => false

/-- A kernel that starts with a row consists of rows of its size. -/
def checkKernelRows (size : Nat) : Option (List KernelPart) → Except ConfigError Unit
  | some parts => if startsWithRow parts then checkRows size parts else .ok ()
  | none => .ok ()

/-- Every coefficient fits the operand width. -/
def checkRange (name : String) (bits : Nat) (index : Nat) : List Int → Except ConfigError Unit
  | [] => .ok ()
  | c :: rest =>
    let range := signedRange bits
    if range.1 ≤ c ∧ c ≤ range.2 then checkRange name bits (index + 1) rest
    else reject name (.coefficient index c bits)

/-- How operands are represented. -/
def readPrecision : Except ConfigError (OperandType × OverflowRule) := do
  let operandType ← s.choose "precision" OperandType.all OperandType.name
  let bits := operandType.bits
  require (isNull (s.get "acc_width") ||
      (decide (bits ≤ s.int "acc_width") && decide (s.int "acc_width" ≤ 64)))
    "acc_width" (.accumulatorWidth bits (s.int "acc_width"))
  let overflow ← s.choose "saturation" [OverflowRule.clamp, .wrap] OverflowRule.name
  return (operandType, overflow)

/-- The words that the banks share out evenly. -/
def unit : Int := s.int "bank_count" * s.int "interleave"

/-- How addresses are mapped to banks. -/
def readMemory : Except ConfigError BankMapping := do
  require (decide (2 ≤ s.int "bank_count") && decide (s.int "bank_count" ≤ 8))
    "bank_count" (.bankCount (s.int "bank_count"))
  require (s.int "ports" == 1 || s.int "ports" == 2) "ports" (.portCount (s.int "ports"))
  require (1 ≤ s.int "mem_latency") "mem_latency" .noLatency
  let mapping ← s.choose "bank_mapping" [BankMapping.modulo, .stride] BankMapping.name
  require (1 ≤ s.int "interleave") "interleave" .noInterleave
  require (decide (0 < s.int "mem_words") && s.int "mem_words" % s.unit == 0)
    "mem_words" (.unevenMemory (s.int "mem_words") s.unit)
  require (decide (0 ≤ s.int "prefetch_stride") && decide (0 ≤ s.int "prefetch_window"))
    "prefetch_stride" .negativePrefetch
  require ((s.int "prefetch_stride" == 0) == (s.int "prefetch_window" == 0))
    "prefetch_window" .lonePrefetch
  return mapping

/-- A configuration that has the given tables and nothing else. -/
def tables : Config :=
  { kernelSize := s.nat "kernel_size", kernel := s.parts,
    firTaps := s.nat "fir_taps", firCoeffs := s.coefficients }

/-- The tables are complete, and their coefficients are operands of so many bits. -/
def checkTables (bits : Nat) : Except ConfigError Unit := do
  require (s.int "kernel_size" == 3 || s.int "kernel_size" == 5)
    "kernel_size" (.kernelSize (s.int "kernel_size"))
  let kernel := s.tables.kernelTable
  require (kernel.length == s.tables.kernelSize * s.tables.kernelSize)
    "kernel" (.kernelCount kernel.length s.tables.kernelSize)
  checkKernelRows s.tables.kernelSize s.tables.kernel
  checkRange "kernel" bits 0 kernel
  require (decide (1 ≤ s.int "fir_taps") && decide (s.int "fir_taps" ≤ 64))
    "fir_taps" (.tapCount (s.int "fir_taps"))
  let fir := s.tables.firTable
  require (fir.length == s.tables.firTaps)
    "fir_coeffs" (.coefficientCount fir.length s.tables.firTaps)
  checkRange "fir_coeffs" bits 0 fir

/-- How windows are pooled. -/
def readPooling : Except ConfigError (PoolMode × Rounding) := do
  let mode ← s.choose "pool_mode" [PoolMode.max, .avg] PoolMode.name
  let rounding ← s.choose "pool_rounding" [Rounding.floor, .nearest] Rounding.name
  require (decide (1 ≤ s.int "pool_window") && decide (s.int "pool_window" ≤ 8))
    "pool_window" (.poolWindow (s.int "pool_window"))
  require (1 ≤ s.int "pool_stride") "pool_stride" .noStride
  return (mode, rounding)

/-- A run has a budget and starts at an instruction. -/
def checkRun : Except ConfigError Unit := do
  require (1 ≤ s.int "max_cycles") "max_cycles" .noBudget
  require (s.int "start_pc" % 4 == 0) "start_pc" .unalignedStart

/-- The configuration that complete settings describe. -/
def config : Except ConfigError Config := do
  s.checkKinds
  let (operandType, overflow) ← s.readPrecision
  let mapping ← s.readMemory
  s.checkTables operandType.bits
  let (poolMode, poolRounding) ← s.readPooling
  s.checkRun
  return { s.tables with
    operandType, overflow, mapping, poolMode, poolRounding
    accWidth := if isNull (s.get "acc_width") then none else some (s.nat "acc_width")
    bankCount := s.nat "bank_count"
    ports := s.nat "ports"
    memLatency := s.nat "mem_latency"
    interleave := s.nat "interleave"
    memWords := s.nat "mem_words"
    prefetchStride := s.nat "prefetch_stride"
    prefetchWindow := s.nat "prefetch_window"
    poolWindow := s.nat "pool_window"
    poolStride := s.nat "pool_stride"
    maxCycles := s.nat "max_cycles"
    startPc := s.int "start_pc"
    trace := s.truth "trace"
    checkReference := s.truth "check_golden" }

/-- The names that no configuration has. -/
def strangers : List String :=
  (s.map (·.1)).filter fun name => (defaults.lookup name).isNone

/-- The least of some names, which are ordered by their codes. -/
def least (first : String) (rest : List String) : String :=
  rest.foldl (fun least name => if Text.codes name < Text.codes least then name else least) first

/-- Ports may be given by word, and the operand type in any case. -/
def spellOut (field : String × Value) : String × Value :=
  match field with
  | ("ports", .text t) =>
    let word := String.ofList (Text.lower t.toList)
    if word = "single" then ("ports", .int 1)
    else if word = "dual" then ("ports", .int 2)
    else ("ports", .text t)
  | ("precision", .text t) => ("precision", .text (String.ofList (Text.upper t.toList)))
  | field => field

/-- Settings with others put in their place. -/
def override (changes : Settings) : Settings :=
  changes.foldl (fun s (name, value) => assign s name value) s

end Settings

namespace Config

/-- A configuration from the settings that differ from the defaults. -/
def read (given : Settings) : Except ConfigError Config :=
  match given.strangers with
  | name :: rest => Settings.reject (Settings.least name rest) .unknownField
  | [] => (Settings.defaults.override (given.map Settings.spellOut)).config

/-- As `read`, for settings that are taken as they are. -/
def readExact (given : Settings) : Except ConfigError Config :=
  if given.strangers.isEmpty then (Settings.defaults.override given).config
  else .error .unknownSetting

/-- The name by which a configuration speaks of itself; no change can be given that name. -/
def ownName : String := "self"

/-- The configuration with some settings changed. -/
def replace (c : Config) (changes : Settings) : Except ConfigError Config :=
  if (changes.lookup ownName).isSome then .error .unknownSetting
  else read (Settings.override c.settings changes)

end Config

end AccelPipe

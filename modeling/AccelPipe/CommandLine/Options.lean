import AccelPipe.Config.Read

/-! The options of the command line, and what each of them sets. -/
namespace AccelPipe.CommandLine

structure Options where
  program : Option String := none
  config : Option String := none
  /-- Settings that go before those of the configuration file. -/
  overrides : Settings := []
  /-- Every use of the option; absent if one had no argument. -/
  data : List (Option String) := []
  trace : Bool := false
  coverage : Bool := false
  state : Bool := false
  json : Bool := false
  interactive : Bool := false
  /-- A source to assemble, and the image to write. -/
  assemble : Option (String × String) := none
  listing : Bool := false
  disassemble : Bool := false
  batch : Option Int := none
  /-- Absent if the option had no argument; the same holds of the next two. -/
  seed : Option Int := some 0
  length : Option Int := some 100
  workers : Option Int := some 1
  verbose : Nat := 0

namespace Options

def set (o : Options) (field : String) (v : Value) : Options :=
  { o with overrides := assign o.overrides field v }

end Options

/-- What an option does with its arguments. One that takes a single argument can do without. -/
inductive Effect where
  | help
  | switch (set : Options → Options)
  | text (set : Option String → Options → Options)
  | twoTexts (set : String → String → Options → Options)
  | integer (set : Option Int → Options → Options)
  | twoIntegers (set : Int → Int → Options → Options)
  /-- An argument out of some. -/
  | choice (choices : List String) (set : Option String → Options → Options)
  | integerChoice (choices : List Int) (set : Option Int → Options → Options)

/-- How many arguments an option takes. -/
def Effect.arity : Effect → Nat
  | help | switch _ => 0
  | twoTexts _ | twoIntegers _ => 2
  | _ => 1

structure Flag where
  names : List String
  effect : Effect

def Flag.arity (f : Flag) : Nat := f.effect.arity

/-- The value of a setting; without an argument it is an empty list, which no setting accepts. -/
def settingOf {α : Type} (value : α → Value) : Option α → Value
  | some a => value a
  | none => .list []

def textSetting (field : String) (choices : List String) : Effect :=
  .choice choices fun t o => o.set field (settingOf .text t)

def integerSetting (field : String) : Effect :=
  .integer fun n o => o.set field (settingOf .int n)

def flags : List Flag :=
  [⟨["-h", "--help"], .help⟩,
   ⟨["--config", "-c"], .text fun t o => { o with config := t }⟩,
   ⟨["--precision"], textSetting "precision" ["INT8", "INT16", "INT32"]⟩,
   ⟨["--acc-width"], integerSetting "acc_width"⟩,
   ⟨["--saturation"], textSetting "saturation" ["clamp", "wrap"]⟩,
   ⟨["--banks"], integerSetting "bank_count"⟩,
   ⟨["--ports"], .integerChoice [1, 2] fun n o => o.set "ports" (settingOf .int n)⟩,
   ⟨["--latency"], integerSetting "mem_latency"⟩,
   ⟨["--mapping"], textSetting "bank_mapping" ["modulo", "stride"]⟩,
   ⟨["--interleave"], integerSetting "interleave"⟩,
   ⟨["--mem-words"], integerSetting "mem_words"⟩,
   ⟨["--prefetch"], .twoIntegers fun stride window o =>
      (o.set "prefetch_stride" (.int stride)).set "prefetch_window" (.int window)⟩,
   ⟨["--kernel-size"], .integerChoice [3, 5] fun n o =>
      o.set "kernel_size" (settingOf .int n)⟩,
   ⟨["--fir-taps"], integerSetting "fir_taps"⟩,
   ⟨["--pool-mode"], textSetting "pool_mode" ["max", "avg"]⟩,
   ⟨["--pool-window"], integerSetting "pool_window"⟩,
   ⟨["--pool-stride"], integerSetting "pool_stride"⟩,
   ⟨["--pool-rounding"], textSetting "pool_rounding" ["floor", "nearest"]⟩,
   ⟨["--max-cycles"], integerSetting "max_cycles"⟩,
   ⟨["--no-golden"], .switch fun o => o.set "check_golden" (.bool false)⟩,
   ⟨["--data"], .text fun t o => { o with data := o.data ++ [t] }⟩,
   ⟨["--trace"], .switch fun o => { o with trace := true }.set "trace" (.bool true)⟩,
   ⟨["--coverage"], .switch fun o => { o with coverage := true }⟩,
   ⟨["--state"], .switch fun o => { o with state := true }⟩,
   ⟨["--json"], .switch fun o => { o with json := true }⟩,
   ⟨["-i", "--interactive"], .switch fun o => { o with interactive := true }⟩,
   ⟨["--assemble"], .twoTexts fun source image o => { o with assemble := some (source, image) }⟩,
   ⟨["--listing", "-l"], .switch fun o => { o with listing := true }⟩,
   ⟨["--disasm"], .switch fun o => { o with disassemble := true }⟩,
   ⟨["--batch"], .integer fun n o => { o with batch := n }⟩,
   ⟨["--seed"], .integer fun n o => { o with seed := n }⟩,
   ⟨["--length"], .integer fun n o => { o with length := n }⟩,
   ⟨["--workers"], .integer fun n o => { o with workers := n }⟩,
   ⟨["-v", "--verbose"], .switch fun o => { o with verbose := o.verbose + 1 }⟩]

end AccelPipe.CommandLine

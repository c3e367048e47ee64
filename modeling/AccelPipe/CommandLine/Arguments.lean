import AccelPipe.CommandLine.Options

/-! Reading the arguments of the command line. An option may be shortened as long as it is clear
which one is meant; its argument follows it or, after an equals sign, stands within it. A double
dash within an option means no argument. Options of one letter may share a dash. A double dash on
its own ends the options. -/
namespace AccelPipe.CommandLine

/-- Why the arguments are not carried out. -/
inductive Rejection where
  /-- Help was asked for. -/
  | help
  | invalid
deriving DecidableEq

/-- The options that share a dash: those in front of the last take no argument; the last one may
have its argument within. -/
structure Cluster where
  front : List Flag := []
  last : Flag
  inner : Option (List Char) := none

inductive Token where
  | argument (text : String)
  | options (cluster : Cluster)
  /-- Options with an argument that they cannot have. -/
  | misused
  | unknown
  | doubleDash

def flagNamed? (name : List Char) : Option Flag :=
  flags.find? fun f => f.names.contains (String.ofList name)

/-- The options of which a long name starts with a text, each as often as it has such names. -/
def flagsFrom (start : List Char) : List Flag :=
  flags.flatMap fun f => (f.names.filter fun n => start.isPrefixOf n.toList).map fun _ => f

/-- The characters behind an option of one letter: its argument if it takes one, else the letters
of further options. -/
def clusterOf (front : List Flag) (flag : Flag) : List Char → Option Cluster
  | [] => some { front, last := flag }
  | c :: rest =>
    if flag.arity = 1 then some { front, last := flag, inner := some (c :: rest) }
    else match flagNamed? ['-', c] with
      | some next => clusterOf (front ++ [flag]) next rest
      | none => none

/-- An option, given by its full name or the start of it, with what follows an equals sign. -/
def longTokenOf (flag : Flag) (inner : List Char) : Token :=
  if flag.arity = 1 then .options { last := flag, inner } else .misused

/-- An option of one letter, with what stands behind the letter or the equals sign that follows
it. -/
def shortTokenOf (flag : Flag) (inner : List Char) : Token :=
  if inner.isEmpty then longTokenOf flag inner
  else match clusterOf [] flag inner with
    | some k => .options k
    | none => .misused

def isDigit (c : Char) : Bool := (Text.decimalValue? c).isSome

/-- A negative number, with or without a decimal point; a line feed may end it. -/
def isNegativeNumber (text : List Char) : Bool :=
  match text with
  | '-' :: body =>
    let body := if body.getLast? == some '\n' then body.dropLast else body
    let whole := body.takeWhile isDigit
    match body.dropWhile isDigit with
    | [] => !whole.isEmpty
    | '.' :: fraction => !fraction.isEmpty && fraction.all isDigit
    | _ => false
  | _ => false

/-- What a text with a leading dash can be if no option has exactly this name. The search for
shortened names is ambiguous if it finds more than one. -/
def abbreviated (text : List Char) : Except Rejection Token :=
  let (name, inner) := Text.cutAt '=' text
  let otherwise : Token :=
    if isNegativeNumber text || text.contains ' ' then .argument (String.ofList text) else .unknown
  match text with
  | '-' :: '-' :: _ =>
    match flagsFrom name, inner with
    | [], _ => .ok otherwise
    | [flag], none => .ok (.options { last := flag })
    | [flag], some inner => .ok (longTokenOf flag inner)
    | _, _ => .error .invalid
  | _ =>
    match flagNamed? (text.take 2) with
    | some flag => .ok (shortTokenOf flag (text.drop 2))
    | none => .ok otherwise

/-- One argument, in front of a double dash. -/
def classify (text : List Char) : Except Rejection Token :=
  match text with
  | '-' :: c :: _ =>
    let (name, inner) := Text.cutAt '=' text
    match flagNamed? name, inner with
    | some flag, none => .ok (.options { last := flag })
    | some flag, some inner =>
      .ok (if c = '-' then longTokenOf flag inner else shortTokenOf flag inner)
    | none, _ => abbreviated text
  | _ => .ok (.argument (String.ofList text))

/-- All arguments; behind the first double dash there are no options. -/
def tokens : List String → Except Rejection (List Token)
  | [] => .ok []
  | a :: rest => do
    if a = "--" then return .doubleDash :: rest.map .argument
    let token ← classify a.toList
    return token :: (← tokens rest)

/-- The number in an argument. -/
def integer (text : String) : Except Rejection Int :=
  (Text.readDecimal text.toList).mapError fun _ => .invalid

def among {α : Type} [DecidableEq α] (choices : List α) (a : α) : Except Rejection α :=
  if choices.contains a then .ok a else .error .invalid

/-- Carries an option out. -/
def apply (o : Options) (effect : Effect) (arguments : List String) : Except Rejection Options :=
  match effect, arguments with
  | .help, _ => .error .help
  | .switch set, [] => .ok (set o)
  | .text set, [a] => .ok (set (some a) o)
  | .twoTexts set, [a, b] => .ok (set a b o)
  | .integer set, [a] => do return set (some (← integer a)) o
  | .twoIntegers set, [a, b] => do return set (← integer a) (← integer b) o
  | .choice choices set, [a] => do return set (some (← among choices a)) o
  | .integerChoice choices set, [a] => do
    return set (some (← among choices (← integer a))) o
  | .text set, [] | .choice _ set, [] => .ok (set none o)
  | .integer set, [] | .integerChoice _ set, [] => .ok (set none o)
  | _, _ => .error .invalid

/-- Where the reader stands with regard to the program, which is the only argument that belongs to
no option. -/
inductive Seat where
  | free
  /-- A double dash has been read, and the program may follow it. -/
  | reserved
  /-- The program has just been read, and a double dash may follow it. -/
  | taken
  | closed
deriving DecidableEq

structure Reading where
  options : Options := {}
  seat : Seat := .free
  /-- Whether there was an argument that nothing takes. -/
  spare : Bool := false

namespace Reading

/-- An argument that belongs to no option. -/
def argument (r : Reading) (text : String) : Reading :=
  match r.seat with
  | .free => { r with options := { r.options with program := some text }, seat := .taken }
  | .reserved => { r with options := { r.options with program := some text }, seat := .closed }
  | .taken | .closed => { r with seat := .closed, spare := true }

def doubleDash (r : Reading) : Reading :=
  match r.seat with
  | .free => { r with seat := .reserved }
  | .taken => { r with seat := .closed }
  | .reserved | .closed => { r with spare := true }

/-- An option stands between a program and a double dash. -/
def behindOption (r : Reading) : Reading :=
  match r.seat with
  | .taken => { r with seat := .closed }
  | _ => r

def cluster (r : Reading) (k : Cluster) (arguments : List String) : Except Rejection Reading := do
  let options ← k.front.foldlM (fun o f => apply o f.effect []) r.options
  let options ← apply options k.last.effect arguments
  return { r.behindOption with options }

end Reading

/-- The arguments of an option that has one within. -/
def innerArguments (inner : List Char) : List String :=
  if inner = ['-', '-'] then [] else [String.ofList inner]

/-- Reads tokens from left to right. The first thing that cannot be carried out ends the reading. -/
def readTokens (r : Reading) : List Token → Except Rejection Reading
  | [] => .ok r
  | .argument a :: rest => readTokens (r.argument a) rest
  | .doubleDash :: rest => readTokens r.doubleDash rest
  | .unknown :: rest => readTokens { r.behindOption with spare := true } rest
  | .misused :: _ => .error .invalid
  | .options k :: rest =>
    match k.inner, k.last.arity, rest with
    | some inner, _, rest => do readTokens (← r.cluster k (innerArguments inner)) rest
    | none, 0, rest => do readTokens (← r.cluster k []) rest
    | none, 1, .argument a :: rest => do readTokens (← r.cluster k [a]) rest
    | none, _, .argument a :: .argument b :: rest => do readTokens (← r.cluster k [a, b]) rest
    | none, _, _ => .error .invalid

def read (arguments : List String) : Except Rejection Options := do
  let r ← readTokens {} (← tokens arguments)
  if r.spare then .error .invalid else .ok r.options

end AccelPipe.CommandLine

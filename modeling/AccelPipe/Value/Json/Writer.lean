import AccelPipe.Text.Symbol
import AccelPipe.Value

/-! Structured data as JSON text: the shortest form, and one with every item on its own line. -/
namespace AccelPipe.Json

def fourHex (n : Nat) : String := "\\u" ++ Text.hexColumn 4 n

/-- A code as an escape, or as two of them. -/
def escapedCode (code : Nat) : String :=
  if code < 0x10000 then fourHex code
  else
    let (high, low) := Text.Symbol.halves code
    fourHex high ++ fourHex low

/-- One symbol of a quoted text, in ASCII. -/
def escaped : Text.Symbol → String
  | .char c =>
    let code := c.toNat
    if c = '\"' then "\\\""
    else if c = '\\' then "\\\\"
    else if c = '\n' then "\\n"
    else if c = '\r' then "\\r"
    else if c = '\t' then "\\t"
    else if code = 8 then "\\b"
    else if code = 12 then "\\f"
    else if 32 ≤ code ∧ code < 127 then String.singleton c
    else escapedCode code
  | s => escapedCode s.code

def quoteInto (acc : String) (s : String) : String :=
  ((Text.symbols s.toList).foldl (fun acc c => acc ++ escaped c) (acc.push '\"')).push '\"'

def real (x : Binary64) : String :=
  match x with
  | .undefined => "NaN"
  | .infinite negative => if negative then "-Infinity" else "Infinity"
  | x => x.text

mutual

/-- Adds the shortest form of a value to a text. -/
def writeInto (acc : String) : Value → String
  | .null => acc ++ "null"
  | .bool b => acc ++ (if b then "true" else "false")
  | .int n => acc ++ Text.decimal n
  | .real x => acc ++ real x
  | .text s => quoteInto acc s
  | .list items => (writeItems (acc.push '[') true items).push ']'
  | .record fields => (writeFields (acc.push '\x7b') true fields).push '\x7d'

def writeItems (acc : String) (first : Bool) : List Value → String
  | [] => acc
  | v :: rest => writeItems (writeInto (if first then acc else acc.push ',') v) false rest

def writeFields (acc : String) (first : Bool) : List (String × Value) → String
  | [] => acc
  | (name, v) :: rest =>
    let acc := quoteInto (if first then acc else acc.push ',') name
    writeFields (writeInto (acc.push ':') v) false rest

end

def write (v : Value) : String := writeInto "" v

def newLine (depth : Nat) : String := "\n" ++ Text.blanks (2 * depth)

mutual

/-- Adds a value to a text with every item on a line of its own, two blanks deeper than what
contains it. Empty containers stay on one line. -/
def layoutInto (acc : String) (depth : Nat) : Value → String
  | .list [] => acc ++ "[]"
  | .list items => layoutItems (acc.push '[') (depth + 1) true items ++ newLine depth ++ "]"
  | .record [] => acc ++ "\x7b\x7d"
  | .record fields =>
    layoutFields (acc.push '\x7b') (depth + 1) true fields ++ newLine depth ++ "\x7d"
  | v => writeInto acc v

def layoutItems (acc : String) (depth : Nat) (first : Bool) : List Value → String
  | [] => acc
  | v :: rest =>
    let acc := (if first then acc else acc.push ',') ++ newLine depth
    layoutItems (layoutInto acc depth v) depth false rest

def layoutFields (acc : String) (depth : Nat) (first : Bool) : List (String × Value) → String
  | [] => acc
  | (name, v) :: rest =>
    let acc := quoteInto ((if first then acc else acc.push ',') ++ newLine depth) name
    layoutFields (layoutInto (acc ++ ": ") depth v) depth false rest

end

def layout (v : Value) : String := layoutInto "" 0 v

end AccelPipe.Json

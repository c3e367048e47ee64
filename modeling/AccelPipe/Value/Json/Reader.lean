import AccelPipe.Text.Symbol
import AccelPipe.Value
import AccelPipe.Value.Json.Fault

/-! JSON text to structured data. Numbers with a fraction or an exponent are binary fractions, all
others are integers. A reader takes a value off the front of a text and leaves the rest; what is
left where it stops tells the place of a fault. -/
namespace AccelPipe.Json

abbrev Reader (α : Type) := List Char → Except (Fault (List Char)) (α × List Char)

/-- Stops in front of what is left. -/
def reject {α : Type} (complaint : Complaint) (left : List Char) :
    Except (Fault (List Char)) α :=
  .error (.malformed complaint left)

def isBlank (c : Char) : Bool := c == ' ' || c == '\t' || c == '\n' || c == '\r'

def skipBlanks (text : List Char) : List Char := text.dropWhile isBlank

def isDigit (c : Char) : Bool := '0' ≤ c && c ≤ '9'

def simpleEscape? (c : Char) : Option Char :=
  if c = '\"' ∨ c = '\\' ∨ c = '/' then some c
  else if c = 'n' then some '\n'
  else if c = 't' then some '\t'
  else if c = 'r' then some '\r'
  else if c = 'b' then some (Char.ofNat 8)
  else if c = 'f' then some (Char.ofNat 12)
  else none

def hexValue? (c : Char) : Option Nat :=
  if 128 ≤ c.toNat then none
  else match Text.digitValue? c with
    | some d => if d < 16 then some d else none
    | none => none

/-- The code that four hexadecimal digits spell. -/
def fourHex? (a b c d : Char) : Option Nat := do
  return (((← hexValue? a) * 16 + (← hexValue? b)) * 16 + (← hexValue? c)) * 16 + (← hexValue? d)

/-- The characters of a text so far, newest first. `lead` is the first half of a character that
waits for its second half. -/
structure Collected where
  chars : List Char
  lead : Option Nat

namespace Collected

/-- A half that did not meet its other half stands alone. -/
def closed (t : Collected) : List Char :=
  match t.lead with
  | none => t.chars
  | some high => (Text.Symbol.ofCode high).kept.reverse ++ t.chars

def push (t : Collected) (c : Char) : Collected := ⟨c :: t.closed, none⟩

def pushSymbol (t : Collected) (s : Text.Symbol) : Collected :=
  ⟨s.kept.reverse ++ t.closed, none⟩

/-- Adds a code that may be half a character. -/
def pushCode (t : Collected) (code : Nat) : Collected :=
  if Text.Symbol.isHigh code then ⟨t.closed, some code⟩
  else if Text.Symbol.isLow code then
    match t.lead with
    | some high => pushSymbol ⟨t.chars, none⟩ (.join high code)
    | none => t.pushSymbol (.ofCode code)
  else t.pushSymbol (.ofCode code)

def text (t : Collected) : String := String.ofList t.closed.reverse

end Collected

/-- A text behind its opening quote; `opening` is what is left from the quote on. The digits of an
escape are read only if something stands behind them. -/
def quotedFrom (opening : List Char) (t : Collected) : Reader String
  | [] => reject .openText opening
  | '\"' :: rest => .ok (t.text, rest)
  | '\\' :: rest =>
    match rest with
    | [] => reject .openText opening
    | 'u' :: a :: b :: c :: d :: behind =>
      match fourHex? a b c d with
      | some code =>
        if behind.isEmpty then reject .unicodeEscape rest
        else quotedFrom opening (t.pushCode code) behind
      | none => reject .unicodeEscape rest
    | 'u' :: _ => reject .unicodeEscape rest
    | e :: behind =>
      match simpleEscape? e with
      | some c => quotedFrom opening (t.push c) behind
      | none => reject .escape ('\\' :: rest)
  | c :: rest =>
    if c.toNat < 32 then reject .control (c :: rest) else quotedFrom opening (t.push c) rest

/-- The digits before the point: a zero is the only one that may start with a zero. -/
def wholeDigits (text : List Char) : List Char × List Char :=
  match text with
  | '0' :: rest => (['0'], rest)
  | text => text.span isDigit

/-- A point and the digits behind it, of which there is one at least; else nothing. -/
def fractionDigits (text : List Char) : List Char × List Char :=
  match text with
  | '.' :: rest =>
    let (digits, behind) := rest.span isDigit
    if digits.isEmpty then ([], text) else (digits, behind)
  | text => ([], text)

/-- The exponent, if there is a complete one. -/
def exponent (text : List Char) : Option Int × List Char :=
  match text with
  | [] => (none, text)
  | mark :: rest =>
    let negative := rest.head? == some '-'
    let signed := negative || rest.head? == some '+'
    let (digits, behind) := (if signed then rest.drop 1 else rest).span isDigit
    if (mark = 'e' ∨ mark = 'E') ∧ !digits.isEmpty then
      let power : Int := Nat.ofDigitChars 10 digits 0
      (some (if negative then -power else power), behind)
    else (none, text)

/-- The longest number at the front of a text. -/
def number : Reader Value := fun text =>
  let negative := text.head? == some '-'
  let (whole, rest) := wholeDigits (if negative then text.drop 1 else text)
  let (fraction, rest) := fractionDigits rest
  let (power, rest) := exponent rest
  if whole.isEmpty then reject .noValue text
  else if fraction.isEmpty ∧ power.isNone then
    if Text.maxDecimalDigits < whole.length then .error (.tooLong whole.length)
    else
      let n : Int := Nat.ofDigitChars 10 whole 0
      .ok (.int (if negative then -n else n), rest)
  else
    let digits := Nat.ofDigitChars 10 (whole ++ fraction) 0
    .ok (.real (Binary64.ofDecimal negative digits (power.getD 0 - fraction.length)), rest)

/-- The values that are written as words. -/
def words : List (List Char × Value) :=
  [("null".toList, .null), ("true".toList, .bool true), ("false".toList, .bool false),
   ("NaN".toList, .real .undefined), ("Infinity".toList, .real (.infinite false)),
   ("-Infinity".toList, .real (.infinite true))]

def word? (text : List Char) : Option (Value × List Char) :=
  words.findSome? fun (word, v) => (word.isPrefixOf? text).map (v, ·)

/-- The items of a list up to its end. No list has more of them than `fuel`. -/
def items (one : Reader Value) : Nat → List Value → Reader (List Value)
  | 0, _, text => reject .noComma text
  | fuel + 1, before, text => do
    let (v, rest) ← one text
    match skipBlanks rest with
    | ',' :: rest => items one fuel (v :: before) (skipBlanks rest)
    | ']' :: rest => return ((v :: before).reverse, rest)
    | rest => reject .noComma rest

/-- The fields of a record up to its end. -/
def fields (one : Reader Value) :
    Nat → List (String × Value) → Reader (List (String × Value))
  | 0, _, text => reject .noComma text
  | fuel + 1, before, text => do
    let body ← match text with
      | '\"' :: body => pure body
      | _ => reject .noName text
    let (name, rest) ← quotedFrom text ⟨[], none⟩ body
    let rest ← match skipBlanks rest with
      | ':' :: rest => pure (skipBlanks rest)
      | rest => reject .noColon rest
    let (v, rest) ← one rest
    let before := assign before name v
    match skipBlanks rest with
    | ',' :: rest => fields one fuel before (skipBlanks rest)
    | '\x7d' :: rest => return (before, rest)
    | rest => reject .noComma rest

/-- A value in which containers stand inside each other `depth` times at most. -/
def value (fuel : Nat) : Nat → Reader Value
  | _, '\"' :: body => do
    let (s, rest) ← quotedFrom ('\"' :: body) ⟨[], none⟩ body
    return (.text s, rest)
  | 0, '[' :: _ | 0, '\x7b' :: _ => .error .tooDeep
  | depth + 1, '[' :: body =>
    match skipBlanks body with
    | ']' :: rest => .ok (.list [], rest)
    | body => do
      let (vs, rest) ← items (value fuel depth) fuel [] body
      return (.list vs, rest)
  | depth + 1, '\x7b' :: body =>
    match skipBlanks body with
    | '\x7d' :: rest => .ok (.record [], rest)
    | body => do
      let (fs, rest) ← fields (value fuel depth) fuel [] body
      return (.record fs, rest)
  | _, text =>
    match word? text with
    | some result => .ok result
    | none => number text

/-- How many containers may stand inside each other. -/
def maxDepth : Nat := 987

/-- A mark of the order of bytes, which a text must not start with. -/
def byteOrderMark : Char := Char.ofNat 0xfeff

/-- The one value of a text, with blanks around it. -/
def readWhole (text : List Char) : Except (Fault (List Char)) Value := do
  if text.head? == some byteOrderMark then reject .byteOrderMark text
  let (v, rest) ← value (text.length + 1) maxDepth (skipBlanks text)
  match skipBlanks rest with
  | [] => return v
  | rest => reject .extraData rest

def read (text : List Char) : Except (Fault Position) Value :=
  (readWhole text).mapError fun fault =>
    fault.map fun left => .behind (Text.symbols (text.take (text.length - left.length)))

end AccelPipe.Json

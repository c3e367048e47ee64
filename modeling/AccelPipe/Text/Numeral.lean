import AccelPipe.Text.Blank
import AccelPipe.Text.Digit

/-! Integers as text. Writing never loses a digit; reading accepts a sign, the three radix
marks, single underscores between digits, and digits of every script. Decimal text has a greatest
length; text in the other radixes has none. -/
namespace AccelPipe.Text

def blanks (n : Nat) : String := String.ofList (List.replicate n ' ')

def padRight (width : Nat) (text : String) : String := text ++ blanks (width - text.length)

def padLeft (width : Nat) (text : String) : String := blanks (width - text.length) ++ text

def minus (v : Int) : String := if v < 0 then "-" else ""

def decimal (v : Int) : String := minus v ++ String.ofList (Nat.toDigits 10 v.natAbs)

/-- Decimal with the sign always shown. -/
def signedDecimal (v : Int) : String := (if v < 0 then "" else "+") ++ decimal v

def hexDigits (n : Nat) : String := String.ofList (Nat.toDigits 16 n)

/-- Sign, mark, and enough leading zeros to fill `width`, which counts sign and mark. -/
def zeroFilled (width : Nat) (mark digits : String) (v : Int) : String :=
  let front := minus v ++ mark
  front ++ String.ofList (List.replicate (width - front.length - digits.length) '0') ++ digits

/-- Hexadecimal with its mark. -/
def hex (v : Int) : String := zeroFilled 0 "0x" (hexDigits v.natAbs) v

/-- Hexadecimal with its mark, ten characters wide at least. -/
def hexAddress (v : Int) : String := zeroFilled 10 "0x" (hexDigits v.natAbs) v

def hexColumn (width : Nat) (v : Int) : String := zeroFilled width "" (hexDigits v.natAbs) v

def upperHexColumn (width : Nat) (v : Int) : String :=
  zeroFilled width "" (String.ofList ((Nat.toDigits 16 v.natAbs).map Char.toUpper)) v

/-- Blanks around a numeral: ASCII blanks, and the blanks of other scripts. The four ASCII
separators are not among them. -/
def isNumeralBlank (c : Char) : Bool :=
  if c.toNat < 128 then c == ' ' || (9 ≤ c.toNat && c.toNat ≤ 13) else isBlank c

/-- The greatest number of digits in decimal text. -/
def maxDecimalDigits : Nat := 4300

/-- Whether an integer has a decimal text. -/
def isWritable (v : Int) : Bool := v.natAbs < Nat.pow 10 maxDecimalDigits

/-- Why a text is not read as an integer. -/
inductive NumeralFault where
  | malformed
  /-- Decimal digits, but more than there may be. -/
  | tooLong (digits : Nat)
deriving DecidableEq

/-- The values of the decimal digits at the start of a text, newest first, and what follows them.
Single underscores may stand between digits; `none` if one stands elsewhere, or if there is no
digit. -/
def decimalRun : List Char → Option (List Nat × List Char) :=
  start []
where
  /-- A digit has to follow. -/
  start (digits : List Nat) : List Char → Option (List Nat × List Char)
    | [] => none
    | c :: rest => match decimalValue? c with
      | some d => more (d :: digits) rest
      | none => none
  /-- A digit or an underscore may follow. -/
  more (digits : List Nat) : List Char → Option (List Nat × List Char)
    | [] => some (digits, [])
    | '_' :: rest => start digits rest
    | c :: rest => match decimalValue? c with
      | some d => more (d :: digits) rest
      | none => some (digits, c :: rest)

/-- Decimal digits with single underscores between them. Their number is judged before anything
that stands behind them. -/
def readDecimalDigits (text : List Char) : Except NumeralFault Nat :=
  match decimalRun text with
  | none => .error .malformed
  | some (digits, rest) =>
    if maxDecimalDigits < digits.length then .error (.tooLong digits.length)
    else if rest.isEmpty then .ok (digits.foldr (fun d value => value * 10 + d) 0)
    else .error .malformed

/-- Digits of one radix with single underscores between them; `none` if another character,
a doubled or an outer underscore occurs, or if there is no digit. -/
def readDigits (radix : Nat) : List Char → Option Nat :=
  start 0
where
  /-- A digit has to follow. -/
  start (value : Nat) : List Char → Option Nat
    | [] => none
    | c :: rest => match digitValue? c with
      | some d => if d < radix then more (value * radix + d) rest else none
      | none => none
  /-- A digit, an underscore or the end may follow. -/
  more (value : Nat) : List Char → Option Nat
    | [] => some value
    | '_' :: rest => start value rest
    | c :: rest => match digitValue? c with
      | some d => if d < radix then more (value * radix + d) rest else none
      | none => none

/-- The zero of any script may open a radix mark. -/
def isZeroDigit (c : Char) : Bool := decimalValue? c == some 0

def radixOfMark (c : Char) : Option Nat :=
  if c = 'x' ∨ c = 'X' then some 16
  else if c = 'o' ∨ c = 'O' then some 8
  else if c = 'b' ∨ c = 'B' then some 2
  else none

/-- One underscore may stand between a radix mark and the digits. -/
def skipUnderscore : List Char → List Char
  | '_' :: rest => rest
  | text => text

/-- A magnitude whose radix is told by its mark. Without a mark it is decimal, and then a
leading zero is allowed only if all digits are zero. -/
def readMarked : List Char → Except NumeralFault Nat
  | z :: m :: rest =>
    if isZeroDigit z then
      match radixOfMark m with
      | some radix =>
        match readDigits radix (skipUnderscore rest) with
        | some n => .ok n
        | none => .error .malformed
      | none => do
        let n ← readDecimalDigits (z :: m :: rest)
        if n = 0 then return n else throw .malformed
    else readDecimalDigits (z :: m :: rest)
  | text => readDecimalDigits text

def readSigned (magnitude : List Char → Except NumeralFault Nat) (text : List Char) :
    Except NumeralFault Int :=
  let text := (text.dropWhile isNumeralBlank).reverse.dropWhile isNumeralBlank |>.reverse
  match text with
  | '-' :: rest => (magnitude rest).map fun n => -(n : Int)
  | '+' :: rest => (magnitude rest).map Int.ofNat
  | _ => (magnitude text).map Int.ofNat

/-- An integer literal in any radix. -/
def readInteger (text : List Char) : Except NumeralFault Int := readSigned readMarked text

/-- A decimal integer, in which leading zeros are allowed. -/
def readDecimal (text : List Char) : Except NumeralFault Int := readSigned readDecimalDigits text

end AccelPipe.Text

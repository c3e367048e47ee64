import AccelPipe.Text.Numeral
import AccelPipe.Text.Printable
import AccelPipe.Text.Symbol

/-! Text between quotes. Single quotes are used unless the text holds one and no double quote. -/
namespace AccelPipe.Text

def quoteMark (text : List Char) : Char :=
  if text.contains '\'' && !text.contains '\"' then '\"' else '\''

def zeroedHex (width n : Nat) : List Char := (hexColumn width n).toList

/-- A code as an escape. -/
def escapedCode (code : Nat) : List Char :=
  if code < 0x100 then '\\' :: 'x' :: zeroedHex 2 code
  else if code < 0x10000 then '\\' :: 'u' :: zeroedHex 4 code
  else '\\' :: 'U' :: zeroedHex 8 code

/-- One symbol between quotes. -/
def quotedSymbol (quote : Char) : Symbol → List Char
  | .char c =>
    if c = quote ∨ c = '\\' then ['\\', c]
    else if c = '\n' then ['\\', 'n']
    else if c = '\r' then ['\\', 'r']
    else if c = '\t' then ['\\', 't']
    else if isPrintable c then [c]
    else escapedCode c.toNat
  | s => escapedCode s.code

def quotedChars (text : List Char) : List Char :=
  let quote := quoteMark text
  quote :: (symbols text).flatMap (quotedSymbol quote) ++ [quote]

def quoted (text : String) : String := String.ofList (quotedChars text.toList)

end AccelPipe.Text

import AccelPipe.Text.Numeral
import AccelPipe.Text.Symbol

/-! Why a text is not read as JSON: what is wrong with it, and where. -/
namespace AccelPipe.Json

inductive Complaint where
  | noValue
  | noName
  | noColon
  | noComma
  /-- Something stands behind the value. -/
  | extraData
  | control
  | escape
  | unicodeEscape
  /-- A text between quotes has no end. -/
  | openText
  | byteOrderMark

def Complaint.message : Complaint → String
  | noValue => "Expecting value"
  | noName => "Expecting property name enclosed in double quotes"
  | noColon => "Expecting ':' delimiter"
  | noComma => "Expecting ',' delimiter"
  | extraData => "Extra data"
  | control => "Invalid control character at"
  | escape => "Invalid \\escape"
  | unicodeEscape => "Invalid \\uXXXX escape"
  | openText => "Unterminated string starting at"
  | byteOrderMark => "Unexpected UTF-8 BOM (decode using utf-8-sig)"

/-- A place in a text: its line and column count from one, its offset from zero. -/
structure Position where
  line : Nat
  column : Nat
  offset : Nat

/-- The place behind some symbols. -/
def Position.behind (front : List Text.Symbol) : Position where
  line := front.count (.char '\n') + 1
  column := (front.reverse.takeWhile (· ≠ .char '\n')).length + 1
  offset := front.length

def Position.message (p : Position) : String :=
  "line " ++ Text.decimal p.line ++ " column " ++ Text.decimal p.column ++
    " (char " ++ Text.decimal p.offset ++ ")"

/-- What reading ends with when it does not succeed. Places are told by a type of the reader's
choice. -/
inductive Fault (Place : Type) where
  | malformed (complaint : Complaint) (place : Place)
  /-- An integer with more digits than are read. -/
  | tooLong (digits : Nat)
  /-- More containers inside each other than are followed. -/
  | tooDeep

def Fault.map {α β : Type} (f : α → β) : Fault α → Fault β
  | malformed complaint place => malformed complaint (f place)
  | tooLong digits => tooLong digits
  | tooDeep => tooDeep

end AccelPipe.Json

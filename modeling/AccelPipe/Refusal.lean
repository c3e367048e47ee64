import AccelPipe.Text.Quoted
import AccelPipe.Text.Shell
import AccelPipe.Text.Utf8

/-! Values that are refused, by cause. One function gives every cause its words. -/
namespace AccelPipe

inductive Refusal where
  /-- A width that is not positive. -/
  | width
  /-- A row length of zero. -/
  | rowLength
  /-- A text that is no integer; `radix` is zero if the text may choose its radix. -/
  | integer (radix : Nat) (text : String)
  /-- A decimal text with more digits than are read. -/
  | tooLong (digits : Nat)
  /-- A number with more digits than are written. -/
  | unwritable
  | registerIndex (index : Int)
  | immediate (format : String) (value low high : Int)
  | oddOffset (what : String) (offset : Int)
  | register (text : String)
  | memoryOperand (text : String)
  | symbol (text : String)
  | shiftAmount (amount : Int)
  | upperImmediate (mnemonic : String) (value : Int)
  | mnemonic (text : String)
  | macVariant (mnemonic : String)
  | aluOperation (mnemonic : String)
  | branchCondition (mnemonic : String)
  | coveragePoint (name : String)
  | event (name : String)
  | kind (name : String)
  | emptyWindow
  | unequalLengths (left right : Nat)
  | nullCharacter
  | noWorkers
  /-- An array with more words than an index can count. -/
  | dimension
  /-- An array with more bytes than an index can count. -/
  | arraySize
  | unfinished (lack : Text.Shell.Unfinished)
  | undecodable (cause : Text.Utf8.Undecodable)
  | unencodable (cause : Text.Unencodable)

namespace Refusal

/-- A quoted text as part of a message, cut after two hundred characters. -/
def excerpt (text : String) : String :=
  String.ofList ((Text.quotedChars text.toList).take 200)

def shape (n : Nat) : String := "(" ++ Text.decimal n ++ ",)"

def utf8Fault : Text.Utf8.Fault → String
  | .start => "invalid start byte"
  | .continuation => "invalid continuation byte"
  | .truncated => "unexpected end of data"

def utf8Place (cause : Text.Utf8.Undecodable) : String :=
  if cause.length = 1 then
    "byte 0x" ++ Text.hexColumn 2 cause.byte ++ " in position " ++ Text.decimal cause.first
  else
    "bytes in position " ++ Text.decimal cause.first ++ "-" ++
      Text.decimal (cause.first + cause.length - 1 : Nat)

def surrogatePlace (cause : Text.Unencodable) : String :=
  if cause.length = 1 then
    "character '\\u" ++ Text.hexColumn 4 cause.half ++ "' in position " ++ Text.decimal cause.first
  else
    "characters in position " ++ Text.decimal cause.first ++ "-" ++
      Text.decimal (cause.first + cause.length - 1 : Nat)

def digitLimit : String :=
  "Exceeds the limit (" ++ Text.decimal Text.maxDecimalDigits ++
    " digits) for integer string conversion"

def wording : Refusal → String
  | width => "negative shift count"
  | rowLength => "range() arg 3 must not be zero"
  | integer radix text =>
    "invalid literal for int() with base " ++ Text.decimal radix ++ ": " ++ excerpt text
  | tooLong digits =>
    digitLimit ++ ": value has " ++ Text.decimal digits ++
      " digits; use sys.set_int_max_str_digits() to increase the limit"
  | unwritable => digitLimit ++ "; use sys.set_int_max_str_digits() to increase the limit"
  | registerIndex index => "Invalid register index: " ++ Text.decimal index
  | immediate format value low high =>
    format ++ " immediate " ++ Text.decimal value ++ " out of range [" ++ Text.decimal low ++
      ", " ++ Text.decimal high ++ "]"
  | oddOffset what offset =>
    what ++ " offset " ++ Text.decimal offset ++ " is not 2-byte aligned"
  | register text => "Invalid register: " ++ Text.quoted text
  | memoryOperand text => "Expected imm(reg), got " ++ Text.quoted text
  | symbol text => "Unknown label or bad immediate: " ++ Text.quoted text
  | shiftAmount amount => "Shift amount " ++ Text.decimal amount ++ " out of range"
  | upperImmediate op value =>
    op ++ " immediate " ++ Text.hex value ++ " does not fit 20 bits"
  | mnemonic text => "Unknown mnemonic: " ++ text
  | macVariant op => "MAC: unsupported variant " ++ op
  | aluOperation op => "ALU: no operation for " ++ op
  | branchCondition op => "Branch: no condition for " ++ op
  | coveragePoint name => "Unknown coverage point: " ++ Text.quoted name
  | event name =>
    "Unknown event " ++ Text.quoted name ++
      "; expected one of ['commit', 'coverage', 'fault']"
  | kind name => Text.quoted name ++ " is not a valid OpKind"
  | emptyWindow => "max() arg is an empty sequence"
  | unequalLengths left right =>
    "shapes " ++ shape left ++ " and " ++ shape right ++ " not aligned: " ++
      Text.decimal left ++ " (dim 0) != " ++ Text.decimal right ++ " (dim 0)"
  | nullCharacter => "embedded null byte"
  | noWorkers => "max_workers must be greater than 0"
  | dimension => "Maximum allowed dimension exceeded"
  | arraySize =>
    "array is too big; `arr.size * arr.dtype.itemsize` is larger than the maximum possible size."
  | unfinished .quotation => "No closing quotation"
  | unfinished .escape => "No escaped character"
  | undecodable cause =>
    "'utf-8' codec can't decode " ++ utf8Place cause ++ ": " ++ utf8Fault cause.fault
  | unencodable cause =>
    "'utf-8' codec can't encode " ++ surrogatePlace cause ++ ": surrogates not allowed"

/-- The refused numbers that the words would show in decimal. -/
def numbers : Refusal → List Int
  | registerIndex index => [index]
  | immediate _ value _ _ => [value]
  | oddOffset _ offset => [offset]
  | shiftAmount amount => [amount]
  | _ => []

/-- What is said of a refused value. A number without a decimal text is refused for that. -/
def message (r : Refusal) : String :=
  if r.numbers.all Text.isWritable then r.wording else unwritable.wording

/-- The refusal of a text that should have been an integer. -/
def ofNumeral (radix : Nat) (text : List Char) : Text.NumeralFault → Refusal
  | .malformed => .integer radix (String.ofList text)
  | .tooLong digits => .tooLong digits

end Refusal

end AccelPipe

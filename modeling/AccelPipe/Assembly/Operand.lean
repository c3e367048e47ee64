import AccelPipe.Assembly.Error
import AccelPipe.Assembly.Source

/-! Operands of statements: registers, numbers, labels and memory operands. -/
namespace AccelPipe.Assembly

abbrev Labels := List (List Char × Int)

abbrev Token := List Char

/-- Register names other than `x0` to `x31`. -/
def aliases : List (String × Nat) :=
  [("zero", 0), ("ra", 1), ("sp", 2), ("gp", 3), ("tp", 4),
   ("t0", 5), ("t1", 6), ("t2", 7), ("s0", 8), ("fp", 8), ("s1", 9),
   ("a0", 10), ("a1", 11), ("a2", 12), ("a3", 13), ("a4", 14), ("a5", 15), ("a6", 16), ("a7", 17),
   ("s2", 18), ("s3", 19), ("s4", 20), ("s5", 21), ("s6", 22), ("s7", 23), ("s8", 24),
   ("s9", 25), ("s10", 26), ("s11", 27), ("t3", 28), ("t4", 29), ("t5", 30), ("t6", 31)]

/-- The register that a name stands for. The digits of a number may come from any script; a
digit-like mark among them is refused as a number. -/
def register (token : Token) : Except Refusal Nat :=
  let name := Text.lower (Text.trim token)
  match aliases.lookup (String.ofList name) with
  | some r => .ok r
  | none =>
    let refused : Refusal := .register (String.ofList name)
    match name with
    | 'x' :: digits =>
      if !digits.isEmpty && digits.all Text.isDigitMark then
        match Text.readDecimal digits with
        | .ok n => if 0 ≤ n ∧ n ≤ 31 then .ok n.toNat else .error refused
        | .error fault => .error (.ofNumeral 10 digits fault)
      else .error refused
    | _ => .error refused

/-- A number in any radix. -/
def number (token : Token) : Except Refusal Int :=
  let token := Text.trim token
  (Text.readInteger token).mapError (.ofNumeral 0 token)

/-- A label stands for its address, any other token for its number. -/
def value (labels : Labels) (token : Token) : Except Refusal Int :=
  let token := Text.trim token
  match labels.lookup token with
  | some address => .ok address
  | none =>
    (Text.readInteger token).mapError fun _ => .symbol (String.ofList token)

/-- A jump target: a label relative to the instruction, or the distance as a number. -/
def distance (labels : Labels) (pc : Int) (token : Token) : Except Refusal Int :=
  match labels.lookup (Text.trim token) with
  | some address => .ok (address - pc)
  | none => value labels token

def isHexDigit (c : Char) : Bool :=
  Text.isAsciiDigit c || ('a' ≤ c && c ≤ 'f') || ('A' ≤ c && c ≤ 'F')

/-- The number in front of a memory operand and what follows it: hexadecimal with its mark, or
digits of any script, with an optional minus sign. Without a number nothing is taken. -/
def offsetText (token : Token) : Token × Token :=
  let sign := token.takeWhile (· == '-') |>.take 1
  let body := token.drop sign.length
  let plain := (sign ++ body.takeWhile fun c => (Text.decimalValue? c).isSome,
    body.dropWhile fun c => (Text.decimalValue? c).isSome)
  let taken := match body with
    | '0' :: x :: rest =>
      if (x = 'x' ∨ x = 'X') ∧ (rest.head?.any isHexDigit) then
        (sign ++ '0' :: x :: rest.takeWhile isHexDigit, rest.dropWhile isHexDigit)
      else plain
    | _ => plain
  if taken.1.length = sign.length then ([], token) else taken

/-- The register between the parentheses of a memory operand that closes the token. -/
def parenthesised? (text : Token) : Option Token :=
  match Text.trimLeft text with
  | '(' :: rest =>
    let inner := Text.trimLeft rest
    let name := inner.takeWhile Text.isWordChar
    if name.isEmpty then none
    else if Text.trimLeft (inner.dropWhile Text.isWordChar) = [')'] then some name
    else none
  | _ => none

/-- A memory operand `offset(register)`; the offset may be absent. -/
def memory (token : Token) : Except Refusal (Int × Nat) :=
  let (offset, rest) := offsetText (Text.trim token)
  match parenthesised? rest with
  | none => .error (.memoryOperand (String.ofList token))
  | some name => do
    let offset ← if offset.isEmpty then pure 0 else number offset
    let base ← register name
    return (offset, base)

end AccelPipe.Assembly

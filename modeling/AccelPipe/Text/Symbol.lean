/-! Symbols of a text: characters, and halves of characters beyond the basic plane that stand alone.
A half is no character, so it is kept behind a mark, as a character of a private plane that tells
which half it is; the mark itself is kept twice. No other character changes, and from what is kept
the symbols are read back. -/
namespace AccelPipe.Text

inductive Symbol where
  | char (c : Char)
  /-- A lone half, by its place among the halves. -/
  | half (index : Fin 0x800)
deriving DecidableEq

namespace Symbol

/-- The last of all codes, which is no letter, digit or blank. -/
def mark : Char := Char.ofNat 0x10ffff

/-- The character that tells a lone half. -/
def sign (index : Fin 0x800) : Char := Char.ofNat (0x10a000 + index)

def ofSign? (c : Char) : Option (Fin 0x800) :=
  if h : 0x10a000 ≤ c.toNat ∧ c.toNat < 0x10a800 then some ⟨c.toNat - 0x10a000, by omega⟩
  else none

/-- What is behind a mark. -/
def behindMark (c : Char) : Symbol :=
  match ofSign? c with
  | some index => half index
  | none => char c

/-- The characters that a symbol is kept as. -/
def kept : Symbol → List Char
  | char c => if c = mark then [mark, mark] else [c]
  | half index => [mark, sign index]

def code : Symbol → Nat
  | char c => c.toNat
  | half index => 0xd800 + index

def isHalf : Symbol → Bool
  | char _ => false
  | half _ => true

/-- The symbol of a code; codes beyond the last one have the first. -/
def ofCode (code : Nat) : Symbol :=
  if h : 0xd800 ≤ code ∧ code < 0xe000 then half ⟨code - 0xd800, by omega⟩
  else char (Char.ofNat code)

/-- The first halves of pairs. -/
def isHigh (code : Nat) : Bool := 0xd800 ≤ code && code < 0xdc00

/-- The second halves of pairs. -/
def isLow (code : Nat) : Bool := 0xdc00 ≤ code && code < 0xe000

/-- The character that two halves make. -/
def join (high low : Nat) : Symbol := ofCode (0x10000 + (high - 0xd800) * 0x400 + (low - 0xdc00))

/-- The halves of a character beyond the basic plane. -/
def halves (code : Nat) : Nat × Nat :=
  (0xd800 + (code - 0x10000) / 0x400, 0xdc00 + code % 0x400)

/-- The bytes of a symbol in UTF-8. Some lone halves stand for a byte that is no character; the
others have no bytes. -/
def bytes? : Symbol → Option (List UInt8)
  | char c => some (String.utf8EncodeChar c)
  | half index =>
    if 0x480 ≤ index.val ∧ index.val < 0x500 then some [UInt8.ofNat (index - 0x400)] else none

theorem toNat_sign (index : Fin 0x800) : (sign index).toNat = 0x10a000 + index := by
  have valid : (0x10a000 + index.val).isValidChar := by
    unfold Nat.isValidChar
    omega
  unfold sign Char.ofNat
  rw [dif_pos valid]
  rfl

theorem ofSign?_sign (index : Fin 0x800) : ofSign? (sign index) = some index := by
  unfold ofSign?
  rw [dif_pos (by rw [toNat_sign]; omega)]
  simp [toNat_sign]

theorem behindMark_sign (index : Fin 0x800) : behindMark (sign index) = half index := by
  simp [behindMark, ofSign?_sign]

theorem behindMark_mark : behindMark mark = char mark := by decide

end Symbol

/-- The symbols of a text. -/
def symbols : List Char → List Symbol
  | [] => []
  | [c] => [.char c]
  | c :: d :: rest =>
    if c = Symbol.mark then Symbol.behindMark d :: symbols rest
    else .char c :: symbols (d :: rest)

theorem symbols_cons {c : Char} (h : c ≠ Symbol.mark) (rest : List Char) :
    symbols (c :: rest) = .char c :: symbols rest := by
  cases rest with
  | nil => rfl
  | cons d rest => simp [symbols, h]

/-- The text that consists of some symbols. -/
def ofSymbols (symbols : List Symbol) : List Char := symbols.flatMap Symbol.kept

theorem symbols_kept_append (s : Symbol) (rest : List Char) :
    symbols (s.kept ++ rest) = s :: symbols rest := by
  cases s with
  | char c =>
    by_cases h : c = Symbol.mark
    · subst h
      simp [Symbol.kept, symbols, Symbol.behindMark_mark]
    · simpa [Symbol.kept, h] using symbols_cons h rest
  | half index => simp [Symbol.kept, symbols, Symbol.behindMark_sign]

/-- No symbol is lost. -/
theorem symbols_ofSymbols (ss : List Symbol) : symbols (ofSymbols ss) = ss := by
  induction ss with
  | nil => rfl
  | cons s rest ih =>
    rw [ofSymbols, List.flatMap_cons, symbols_kept_append]
    exact congrArg _ ih

/-- The text that consists of some characters. -/
def ofCharacters (cs : List Char) : List Char := ofSymbols (cs.map .char)

/-- The codes of the symbols of a text. -/
def codes (text : String) : List Nat := (symbols text.toList).map Symbol.code

/-- The bytes of a text, without those halves that have none. -/
def toBytes (text : String) : List UInt8 :=
  (symbols text.toList).flatMap fun s => s.bytes?.getD []

/-- A text as it is shown outside, with a sign of replacement for every lone half. -/
def shown (text : String) : String :=
  String.ofList ((symbols text.toList).map fun
    | .char c => c
    | .half _ => Char.ofNat 0xfffd)

/-- Lone halves in a row that have no bytes: the first one, its position, and their number. -/
structure Unencodable where
  first : Nat
  length : Nat
  half : Nat

/-- The first halves without bytes, among symbols from position `pos` on. -/
def unencodable? (pos : Nat) : List Symbol → Option Unencodable
  | [] => none
  | s :: rest =>
    if s.bytes?.isSome then unencodable? (pos + 1) rest
    else some ⟨pos, (rest.takeWhile Symbol.isHalf).length + 1, s.code⟩

end AccelPipe.Text

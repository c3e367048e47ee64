import AccelPipe.Assembly.Emit
import AccelPipe.Instruction.Render

/-! Assembled programs, their listings and their images in bytes. -/
namespace AccelPipe

namespace Assembly

/-- An assembled source: its labels in order of definition, and every statement with the words
that it became. -/
structure Program where
  labels : Labels
  statements : List (Placed × List Nat)

def assemble (source : List Char) (base : Int) : Except Error Program := do
  let layout ← layout base (items source)
  let statements ← layout.statements.mapM fun p => (emit layout.labels p).map (p, ·)
  return ⟨layout.labels, statements⟩

def Program.words (p : Program) : List Nat := p.statements.flatMap (·.2)

/-- A line of a listing. A placement is shown at the address that it reaches. -/
structure Entry where
  address : Int
  words : List Nat
  text : List Char

def Program.entries (p : Program) : List Entry :=
  p.statements.map fun (placed, words) =>
    if isPlacement placed.name then ⟨placed.address + placed.size, [], placed.text⟩
    else ⟨placed.address, words, placed.text⟩

def Entry.line (e : Entry) : String :=
  "  " ++ Text.upperHexColumn 6 e.address ++ "  " ++
    Text.padRight 18 (String.intercalate " " (e.words.map (Text.hexColumn 8 ∘ Int.ofNat))) ++
    "  " ++ String.ofList e.text

def labelLine (name : List Char) : String := Text.blanks 20 ++ String.ofList name ++ ":"

/-- The lines of a listing. The labels of an address stand before its first line, and labels
whose address no line shows are left out. -/
def listing (labels : Labels) : List Entry → List String
  | [] => []
  | e :: rest =>
    (labels.filter (·.2 == e.address)).map (labelLine ·.1) ++ e.line ::
      listing (labels.filter (·.2 != e.address)) rest

def Program.listing (p : Program) : List String := Assembly.listing p.labels p.entries

end Assembly

/-- A word as four bytes, the lowest first. -/
def bytesOfWord (w : Nat) : List UInt8 :=
  [UInt8.ofNat (w % 256), UInt8.ofNat (w / 256 % 256), UInt8.ofNat (w / 65536 % 256),
   UInt8.ofNat (w / 16777216 % 256)]

def bytesOfWords (words : List Nat) : List UInt8 := words.flatMap bytesOfWord

/-- Bytes as words, the lowest byte first; a short last word is filled up with zeros. -/
def wordsOfBytes : List UInt8 → List Nat
  | [] => []
  | a :: b :: c :: d :: rest =>
    (a.toNat + b.toNat * 256 + c.toNat * 65536 + d.toNat * 16777216) :: wordsOfBytes rest
  | [a] => [a.toNat]
  | [a, b] => [a.toNat + b.toNat * 256]
  | [a, b, c] => [a.toNat + b.toNat * 256 + c.toNat * 65536]

/-- One line for each word of an image. The column of the word shows it as it is given. -/
def disassemble (words : List Int) (base : Int) : List String :=
  match words with
  | [] => []
  | w :: rest =>
    ("  " ++ Text.upperHexColumn 6 base ++ "  " ++ Text.hexColumn 8 w ++ "  " ++
      (Instruction.decode w).text) :: disassemble rest (base + 4)

end AccelPipe

/-! Blanks, and the ways a text is cut at them. A text under examination is a list of
characters, so that every cut is an ordinary list operation. -/
namespace AccelPipe.Text

/-- White space of every script, the four ASCII separators included. -/
def isBlank (c : Char) : Bool :=
  let n := c.toNat
  (9 ≤ n && n ≤ 13) || (28 ≤ n && n ≤ 32) ||
    (128 ≤ n && (n == 0x85 || n == 0xa0 || n == 0x1680 || (0x2000 ≤ n && n ≤ 0x200a) ||
      n == 0x2028 || n == 0x2029 || n == 0x202f || n == 0x205f || n == 0x3000))

def trimLeft (text : List Char) : List Char := text.dropWhile isBlank

def trimRight (text : List Char) : List Char := (text.reverse.dropWhile isBlank).reverse

def trim (text : List Char) : List Char := trimRight (trimLeft text)

/-- The first word, and what follows the blanks after it. -/
def splitWord (text : List Char) : List Char × List Char :=
  let text := trimLeft text
  (text.takeWhile (!isBlank ·), trimLeft (text.dropWhile (!isBlank ·)))

/-- The part before the first `mark`, and the part after it if the mark occurs. -/
def cutAt (mark : Char) (text : List Char) : List Char × Option (List Char) :=
  (text.takeWhile (· != mark), (text.dropWhile (· != mark)).tail?)

/-- A line ends with a line feed, a carriage return, or the two together. -/
def unifyLineEnds : List Char → List Char
  | [] => []
  | '\r' :: '\n' :: rest => '\n' :: unifyLineEnds rest
  | c :: rest => (if c = '\r' then '\n' else c) :: unifyLineEnds rest

/-- Trimming keeps only characters of the text, in order. -/
theorem trimLeft_sublist (text : List Char) : (trimLeft text).Sublist text :=
  List.dropWhile_sublist _

theorem head?_trimLeft_not_blank (text : List Char) :
    ∀ c ∈ (trimLeft text).head?, isBlank c = false := by
  induction text with
  | nil => simp [trimLeft]
  | cons c rest ih =>
      by_cases h : isBlank c = true
      · simpa [trimLeft, List.dropWhile_cons, h] using ih
      · simp [trimLeft, h]

end AccelPipe.Text

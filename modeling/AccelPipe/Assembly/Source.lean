import AccelPipe.Text.Blank
import AccelPipe.Text.Case
import AccelPipe.Text.Word

/-! Source text as a list of labels and statements. Comments are dropped; any number of labels may
stand before a statement, and a line that ends with a colon is a label as a whole. -/
namespace AccelPipe.Assembly

/-- The text without the comment that one mark opens. -/
def withoutComment (mark : Char) (text : List Char) : List Char := text.takeWhile (· != mark)

/-- What a line says once its comment and the blanks around it are gone. -/
def meaning (line : List Char) : List Char :=
  Text.trim (withoutComment '#' (withoutComment ';' line))

def startsLabel (c : Char) : Bool := Text.isAsciiLetter c || c == '_' || c == '.'

def continuesLabel (c : Char) : Bool := Text.isWordChar c || c == '.'

/-- The label in front of a text, with what follows its colon. -/
def leadingLabel? (text : List Char) : Option (List Char × List Char) :=
  match text with
  | [] => none
  | c :: rest =>
    if startsLabel c then
      match Text.trimLeft (rest.dropWhile continuesLabel) with
      | ':' :: after => some (c :: rest.takeWhile continuesLabel, Text.trim after)
      | _ => none
    else none

inductive Item where
  | label (line : Nat) (name : List Char)
  | statement (line : Nat) (text : List Char)

/-- Trimming never makes a text longer. -/
theorem length_trim_le (text : List Char) : (Text.trim text).length ≤ text.length := by
  unfold Text.trim Text.trimRight Text.trimLeft
  rw [List.length_reverse]
  refine Nat.le_trans (List.dropWhile_sublist _).length_le ?_
  rw [List.length_reverse]
  exact (List.dropWhile_sublist _).length_le

/-- Each label takes at least its colon off the text. -/
theorem leadingLabel?_length {text name after : List Char}
    (h : leadingLabel? text = some (name, after)) : after.length < text.length := by
  unfold leadingLabel? at h
  split at h
  · simp at h
  · rename_i c rest
    split at h
    · split at h
      · rename_i tail hTail
        simp only [Option.some.injEq, Prod.mk.injEq] at h
        obtain ⟨_, rfl⟩ := h
        have hTrim := length_trim_le tail
        have hDrop : (Text.trimLeft (rest.dropWhile continuesLabel)).length ≤ rest.length :=
          Nat.le_trans (List.dropWhile_sublist _).length_le (List.dropWhile_sublist _).length_le
        rw [hTail] at hDrop
        simp only [List.length_cons] at hDrop ⊢
        omega
      · simp at h
    · simp at h

/-- The labels and the statement of one line. -/
def itemsOfText (line : Nat) (text : List Char) : List Item :=
  match h : leadingLabel? text with
  | some (name, after) =>
    have := leadingLabel?_length h
    .label line name :: itemsOfText line after
  | none =>
    if text.isEmpty then []
    else if text.getLast? = some ':' then [.label line text.dropLast]
    else [.statement line text]
termination_by text.length

def itemsFrom (line : Nat) : List (List Char) → List Item
  | [] => []
  | raw :: rest => itemsOfText line (meaning raw) ++ itemsFrom (line + 1) rest

/-- The items of a source text, whose lines are counted from one. -/
def items (source : List Char) : List Item := itemsFrom 1 (source.splitOn '\n')

/-- The operands of a statement: cut at commas, trimmed, empty ones dropped. -/
def operands (text : List Char) : List (List Char) :=
  ((text.splitOn ',').map Text.trim).filter (!·.isEmpty)

/-- A statement as its name in small letters and the text of its operands. -/
def nameAndRest (text : List Char) : List Char × List Char :=
  let (name, rest) := Text.splitWord text
  (Text.lower name, rest)

end AccelPipe.Assembly

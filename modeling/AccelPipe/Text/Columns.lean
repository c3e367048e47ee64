import AccelPipe.Text.Numeral

/-! A list of words in columns: the columns are read from top to bottom, there are as few rows as
fit into the width, and two blanks stand between two columns. -/
namespace AccelPipe.Text

/-- The columns, each of `rows` words. -/
def columnsOf (words : List String) (rows : Nat) : List (List String) :=
  (List.range ((words.length + rows - 1) / rows)).map fun c => (words.drop (c * rows)).take rows

def widest (words : List String) : Nat := (words.map String.length).foldl max 0

def rowsFit (words : List String) (width rows : Nat) : Bool :=
  let widths := (columnsOf words rows).map widest
  widths.foldr (· + ·) 0 + 2 * (widths.length - 1) ≤ width

/-- The rows in which words are shown. -/
def columns (words : List String) (width : Nat) : List String :=
  match (List.range (words.length - 1)).find? fun r => rowsFit words width (r + 1) with
  | some r =>
    let rows := r + 1
    let widths := (columnsOf words rows).map widest
    (List.range rows).map fun row =>
      let cells := (columnsOf words rows).filterMap (·[row]?)
      String.intercalate "  " (List.zipWith padRight widths cells)
  | none => words

end AccelPipe.Text

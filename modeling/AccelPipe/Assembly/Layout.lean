import AccelPipe.Assembly.Operand

/-! Where everything goes: the address of every label and of every statement. Sizes are settled
before any label is known, so a constant load whose operand is not a number takes two words. -/
namespace AccelPipe.Assembly

structure Placed where
  line : Nat
  text : List Char
  name : List Char
  rest : List Char
  address : Int
  size : Int

structure Layout where
  labels : Labels
  statements : List Placed
  finish : Int

/-- The size of a constant load: one word for a number of twelve signed bits, else two. -/
def loadSize (ops : List Token) : Int :=
  match ops with
  | [_, source] =>
    match Text.readInteger (Text.trim source) with
    | .ok n => if -2048 ≤ n ∧ n ≤ 2047 then 4 else 8
    | .error _ => 8
  | _ => 8

/-- The size of a statement that is not a placement. -/
def statementSize (name rest : List Char) : Int :=
  if name = ".word".toList then 4 * (operands rest).length
  else if name = "li".toList then loadSize (operands rest)
  else 4

def isPlacement (name : List Char) : Bool := name == ".org".toList

/-- The size of a statement at an address; a placement fills up to its target, which has to be a
word boundary that is not behind. -/
def sizeAt (line : Nat) (name rest : List Char) (pc : Int) : Except Error Int :=
  if isPlacement name then
    match Text.readInteger (Text.trim rest) with
    | .error _ => .error ⟨line, .orgAddress (String.ofList rest)⟩
    | .ok target =>
      if target < pc ∨ target % 4 ≠ 0 then .error ⟨line, .orgPosition target pc⟩
      else .ok (target - pc)
  else .ok (statementSize name rest)

/-- Adds one item behind what has been placed. Statements are kept newest first. -/
def Layout.add (layout : Layout) (item : Item) : Except Error Layout :=
  match item with
  | .label line name =>
    if (layout.labels.lookup name).isSome then
      .error ⟨line, .duplicateLabel (String.ofList name)⟩
    else .ok { layout with labels := layout.labels ++ [(name, layout.finish)] }
  | .statement line text => do
    let (name, rest) := nameAndRest text
    let size ← sizeAt line name rest layout.finish
    return { layout with
      statements := ⟨line, text, name, rest, layout.finish, size⟩ :: layout.statements
      finish := layout.finish + size }

/-- The layout of a list of items from a base address on, statements in order. -/
def layout (base : Int) (items : List Item) : Except Error Layout := do
  let final ← items.foldlM Layout.add ⟨[], [], base⟩
  return { final with statements := final.statements.reverse }

end AccelPipe.Assembly

import AccelPipe.Text.Numeral

/-! Lines of a generated program. -/
namespace AccelPipe.Stimulus

inductive Part where
  | register (r : Nat)
  | number (n : Int)
  | memory (offset : Int) (base : Nat)
deriving DecidableEq

def registerText (r : Nat) : String := "x" ++ Text.decimal r

def Part.text : Part → String
  | register r => registerText r
  | number n => Text.decimal n
  | memory offset base => Text.decimal offset ++ "(" ++ registerText base ++ ")"

structure Line where
  name : String
  parts : List Part := []
deriving DecidableEq

def Line.text (l : Line) : String :=
  let operands := if l.parts.isEmpty then ""
    else " " ++ String.intercalate ", " (l.parts.map Part.text)
  "    " ++ l.name ++ operands

end AccelPipe.Stimulus

import AccelPipe.Bits

/-! A program as the words of the instruction memory. -/
namespace AccelPipe

abbrev Image := Array Nat

namespace Image

def ofWords (words : List Int) : Image := (words.map u32).toArray

/-- The word at a byte address. Outside the program, and between two words, it is zero. -/
def fetch (image : Image) (pc : Int) : Nat :=
  if pc < 0 ∨ pc % 4 ≠ 0 then 0 else image.getD (pc / 4).toNat 0

end Image

end AccelPipe

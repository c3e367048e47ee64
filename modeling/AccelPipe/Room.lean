/-! How much can be held at once. The bounds are far above any size that a run needs, so only sizes
that were never meant to be used run into them. -/
namespace AccelPipe

/-- Why something is too large to be held. -/
inductive Lack where
  /-- Its size is beyond the greatest index. -/
  | index
  /-- It is more than all memory. -/
  | memory
  /-- As `memory`, for the words of the reference machine. -/
  | reference
deriving DecidableEq

namespace Room

/-- The greatest index of a row. -/
def maxIndex : Nat := 0x7fffffffffffffff

/-- No row of words has this length. -/
def maxWords : Nat := 0x100000000

/-- No number that is held has this many bits. -/
def maxBits : Nat := 0x4000000000

/-- The greatest number of bits that can be asked for, which come thirty to a place. -/
def maxIndexedBits : Nat := 30 * 0x1ffffffffffffff8

/-- Whether rows of `words` words can be held, `rows` of them. -/
def checkRows (rows words : Nat) : Except Lack Unit :=
  if maxIndex < words then .error .index
  else if maxWords ≤ rows * words then .error .memory
  else .ok ()

/-- Whether the powers of two up to `bits` can be held. -/
def checkPower (bits : Nat) : Except Lack Unit :=
  if maxIndexedBits < bits then .error .index
  else if maxBits ≤ bits then .error .memory
  else .ok ()

theorem checkRows_ok {rows words : Nat} (h : rows * words < maxWords) (few : words < maxWords) :
    checkRows rows words = .ok () := by
  unfold checkRows maxIndex
  unfold maxWords at h few ⊢
  rw [if_neg (by omega), if_neg (by omega)]

end Room

end AccelPipe

/-! Two's complement views of an integer of any size. A width is a number of bits; a word is the
residue of an integer modulo 2 ^ 32. -/
namespace AccelPipe

/-- The low 32 bits, as a natural number. -/
def u32 (v : Int) : Nat := (v % 0x100000000).toNat

/-- The low 32 bits, read as a signed number. -/
def s32 (v : Int) : Int := v.bmod (0x100000000)

/-- A number that a register or a memory word can hold: it is its own signed view. -/
def IsWord (v : Int) : Prop := s32 v = v

/-- The bits that two numbers have in common; a negative number has ones without end. -/
def bitAnd : Int → Int → Int
  | .ofNat m, .ofNat n => (m &&& n : Nat)
  | .ofNat m, .negSucc n => (m ^^^ (m &&& n) : Nat)
  | .negSucc m, .ofNat n => (n ^^^ (n &&& m) : Nat)
  | .negSucc m, .negSucc n => .negSucc (m ||| n)

/-- The bits of either number. -/
def bitOr (a b : Int) : Int := ~~~(bitAnd (~~~a) (~~~b))

/-- The bits in which two numbers differ. -/
def bitXor : Int → Int → Int
  | .ofNat m, .ofNat n | .negSucc m, .negSucc n => (m ^^^ n : Nat)
  | .ofNat m, .negSucc n | .negSucc m, .ofNat n => .negSucc (m ^^^ n)

/-- The low bits of `v`, read as a signed number of that width. -/
def signExtend (v : Int) (bits : Nat) : Int := v.bmod (Nat.pow 2 bits)

/-- The least and the greatest signed number of a width. -/
def signedRange (bits : Nat) : Int × Int := (-Nat.pow 2 (bits - 1), Nat.pow 2 (bits - 1) - 1)

/-- The nearest number of the signed range, and whether that is another number. -/
def clamp (v : Int) (bits : Nat) : Int × Bool :=
  let range := signedRange bits
  if range.2 < v then (range.2, true) else if v < range.1 then (range.1, true) else (v, false)

/-- The number of the signed range with the same low bits, and whether that is another number. -/
def wrap (v : Int) (bits : Nat) : Int × Bool :=
  let r := signExtend v bits
  (r, r != v)

/-- A number that a width has room for stays as it is. -/
theorem signExtend_eq_self {v : Int} {size : Nat} (room : v.natAbs < Nat.pow 2 size) :
    signExtend v (size + 1) = v := by
  have double : Nat.pow 2 (size + 1) = Nat.pow 2 size * 2 := Nat.pow_succ 2 size
  unfold signExtend
  rw [double]
  exact Int.bmod_eq_of_le (by omega) (by omega)

theorem clamp_eq_self {v : Int} {size : Nat} (room : v.natAbs < Nat.pow 2 size) :
    clamp v (size + 1) = (v, false) := by
  have lower : ¬ v < -(Nat.pow 2 size : Nat) := by omega
  have upper : ¬ (Nat.pow 2 size : Nat) - 1 < v := by omega
  simp only [clamp, signedRange, Nat.add_sub_cancel, if_neg upper, if_neg lower]

/-- The field of `width` bits that starts at bit `low`. -/
def bitField (v : Int) (low width : Nat) : Int := v / Nat.pow 2 low % Nat.pow 2 width

/-- The upper and the lower part that load a 32-bit constant in two instructions. The lower part
is signed, so the upper part makes up for its borrow. -/
def splitConstant (v : Int) : Nat × Int :=
  let low := signExtend (u32 v) 12
  (u32 (u32 v - low) / 0x1000, low)

/-- The mean of `n` numbers whose sum is `total`: rounded down, or to the nearest integer with a
half going up. -/
def average (total n : Int) (nearest : Bool) : Int :=
  if nearest then Int.fdiv (2 * total + n) (2 * n) else Int.fdiv total n

def total (xs : List Int) : Int := xs.foldr (· + ·) 0

/-- The sum of the products of two lists, place by place. -/
def dot (xs ys : List Int) : Int := total (List.zipWith (· * ·) xs ys)

theorem u32_lt (v : Int) : u32 v < 0x100000000 := by
  unfold u32
  omega

theorem u32_natCast (n : Nat) (h : n < 0x100000000) : u32 n = n := by
  unfold u32
  omega

/-- Reducing to 32 bits first changes no signed view. -/
theorem s32_u32 (v : Int) : s32 (u32 v) = s32 v := by
  unfold s32 u32
  rw [Int.toNat_of_nonneg (by omega)]
  exact Int.emod_bmod v (0x100000000)

theorem s32_bounds (v : Int) : -0x80000000 ≤ s32 v ∧ s32 v < 0x80000000 := by
  unfold s32
  constructor
  · exact Int.le_bmod (by decide)
  · exact Int.bmod_lt (by decide)

theorem isWord_s32 (v : Int) : IsWord (s32 v) := by
  obtain ⟨hLow, hHigh⟩ := s32_bounds v
  exact Int.bmod_eq_of_le (by omega) (by omega)

theorem isWord_zero : IsWord 0 := isWord_s32 0

end AccelPipe

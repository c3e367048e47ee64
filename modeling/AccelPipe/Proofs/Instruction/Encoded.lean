import AccelPipe.Proofs.Except
import AccelPipe.Proofs.Instruction.Decoded
import Mathlib.Data.Int.ModEq
import Mathlib.Tactic.Ring

/-! Encoders against the decoder. Each format puts the fields of a word together again, and a
decoded branch or jump goes as far as the one that was encoded. -/
namespace AccelPipe

/-- Reading the low bits as a signed number changes none of them. -/
theorem bitField_signExtend (v : Int) {low width bits : Nat} (hInside : low + width ≤ bits) :
    bitField (signExtend v bits) low width = bitField v low width := by
  obtain ⟨more, rfl⟩ := Nat.exists_eq_add_of_le hInside
  obtain ⟨k, hMore⟩ : (Nat.pow 2 (low + width + more) : Int) ∣
      signExtend v (low + width + more) - v :=
    Int.ModEq.dvd (show _ % _ = _ from Int.bmod_emod.symm)
  have hSame : signExtend v (low + width + more) =
      v + Nat.pow 2 low * (Nat.pow 2 width * (Nat.pow 2 more * k)) := by
    rw [← sub_eq_iff_eq_add', hMore]
    push_cast [Nat.pow_eq, Nat.pow_add]
    ring
  have hLow : (Nat.pow 2 low : Int) ≠ 0 := by
    exact_mod_cast (Nat.pow_pos (by decide) : 0 < Nat.pow 2 low).ne'
  unfold bitField
  rw [hSame, Int.add_mul_ediv_left _ _ hLow, Int.add_mul_emod_self_left]

/-- A field of a natural number is a quotient and a remainder. -/
theorem bitField_natCast (n low width : Nat) :
    bitField (n : Int) low width = (n / 2 ^ low % 2 ^ width : Nat) := by
  unfold bitField
  rw [Nat.pow_eq, Nat.pow_eq, Int.natCast_emod, Int.natCast_ediv]

namespace Encode

theorem slice_natCast (n low width : Nat) :
    slice (n : Int) low width = n / 2 ^ low % 2 ^ width := by
  unfold slice
  rw [bitField_natCast, Int.toNat_natCast]

/-- A number below 32 names a register. -/
theorem register_ok {n : Nat} (h : n < 32) : register (n : Int) = .ok n := by
  unfold register
  rw [if_pos ⟨by omega, by omega⟩]
  rfl

/-- A number that fits a field is not cut. -/
theorem cut_ok {n bits : Nat} (h : n < Nat.pow 2 bits) : cut (n : Int) bits = n := by
  unfold cut
  rw [← Int.natCast_emod, Nat.mod_eq_of_lt h]
  rfl

/-- Sign extension does not change the bits of a field. -/
theorem cut_signExtend (v : Int) (bits : Nat) : cut (signExtend v bits) bits = cut v bits := by
  unfold cut signExtend
  rw [Int.bmod_emod]

/-- Nor the bits inside it. -/
theorem slice_signExtend (v : Int) {low width bits : Nat} (hInside : low + width ≤ bits) :
    slice (signExtend v bits) low width = slice v low width := by
  unfold slice
  rw [bitField_signExtend v hInside]

/-- A number in the signed range fits an immediate. -/
theorem immediate_ok {v : Int} {bits : Nat} {format : String} (hLow : (signedRange bits).1 ≤ v)
    (hHigh : v ≤ (signedRange bits).2) : immediate v bits format = .ok () := by
  unfold immediate
  rw [if_pos ⟨hLow, hHigh⟩]

/-- So does every sign-extended one. -/
theorem immediate_signExtend (v : Int) {bits : Nat} (hPos : 0 < bits) (format : String) :
    immediate (signExtend v bits) bits format = .ok () :=
  immediate_ok (signExtend_range hPos v).1 (signExtend_range hPos v).2

/-! The fields of a word make up the word. -/

section Fields

variable {w : Nat}

theorem cut_opcode (w : Nat) : cut (w % 0x80 : Nat) 7 = w % 0x80 :=
  cut_ok (Nat.mod_lt _ (by decide))

theorem cut_funct3 (w : Nat) : cut (w / 0x1000 % 8 : Nat) 3 = w / 0x1000 % 8 :=
  cut_ok (Nat.mod_lt _ (by decide))

/-- The fields of a word, put together in the register format, are the word. -/
theorem r_fields (hWord : w < 0x100000000) :
    r (w % 0x80 : Nat) (w / 0x80 % 0x20 : Nat) (w / 0x1000 % 8 : Nat) (w / 0x8000 % 0x20 : Nat)
      (w / 0x100000 % 0x20 : Nat) (w / 0x2000000 : Nat) = .ok w := by
  unfold r
  rw [register_ok (by omega), register_ok (by omega), register_ok (by omega), cut_opcode,
    cut_funct3, cut_ok (show _ < 128 by omega)]
  refine congrArg Except.ok ?_
  omega

/-- So they are with the immediate of the immediate format, -/
theorem i_fields (hWord : w < 0x100000000) :
    i (w % 0x80 : Nat) (w / 0x80 % 0x20 : Nat) (w / 0x1000 % 8 : Nat) (w / 0x8000 % 0x20 : Nat)
      (Immediate.i w) = .ok w := by
  have hTop : (w : Int) / 0x100000 = (w / 0x100000 : Nat) := rfl
  unfold i Immediate.i
  rw [register_ok (by omega), register_ok (by omega), immediate_signExtend _ (by decide),
    cut_signExtend, hTop, cut_ok (show _ < 4096 by omega), cut_opcode, cut_funct3]
  refine congrArg Except.ok ?_
  omega

/-- that of the store format, -/
theorem s_fields (hWord : w < 0x100000000) :
    s (w % 0x80 : Nat) (w / 0x1000 % 8 : Nat) (w / 0x8000 % 0x20 : Nat)
      (w / 0x100000 % 0x20 : Nat) (Immediate.s w) = .ok w := by
  have hImm : (w : Int) / 0x2000000 * 0x20 + bitField w 7 5 =
      (w / 0x2000000 * 0x20 + w / 0x80 % 0x20 : Nat) := by
    rw [bitField_natCast]
    rfl
  unfold s Immediate.s
  rw [register_ok (by omega), register_ok (by omega), immediate_signExtend _ (by decide),
    slice_signExtend _ (by decide), slice_signExtend _ (by decide), hImm, cut_opcode, cut_funct3]
  refine congrArg Except.ok ?_
  simp only [slice_natCast, Nat.reducePow]
  omega

/-- and that of the upper-immediate format. -/
theorem u_fields (hWord : w < 0x100000000) :
    u (w % 0x80 : Nat) (w / 0x80 % 0x20 : Nat) (w / 0x1000 : Nat) = .ok w := by
  unfold u
  rw [register_ok (by omega), cut_opcode, cut_ok (show _ < 1048576 by omega)]
  refine congrArg Except.ok ?_
  omega

end Fields

/-! The distance of a branch or a jump, whose bits lie scattered in the word. -/

/-- The distance of a branch, as it stands in its word. -/
def branchBits (w : Nat) : Nat :=
  w / 0x80000000 * 0x1000 + w / 0x80 % 2 * 0x800 + w / 0x2000000 % 0x40 * 0x20 +
    w / 0x100 % 0x10 * 2

/-- The word of a branch, from its fields and the bits of its distance. -/
def branchWord (funct3 rs1 rs2 n : Nat) : Nat :=
  n / 0x1000 % 2 * 0x80000000 + n / 0x20 % 0x40 * 0x2000000 + rs2 * 0x100000 + rs1 * 0x8000 +
    funct3 * 0x1000 + n / 2 % 0x10 * 0x100 + n / 0x800 % 2 * 0x80 + Opcode.branch

/-- The distance of a jump, as it stands in its word. -/
def jumpBits (w : Nat) : Nat :=
  w / 0x80000000 * 0x100000 + w / 0x1000 % 0x100 * 0x1000 + w / 0x100000 % 2 * 0x800 +
    w / 0x200000 % 0x400 * 2

/-- The word of a jump, from its register and the bits of its distance. -/
def jumpWord (rd n : Nat) : Nat :=
  n / 0x100000 % 2 * 0x80000000 + n / 2 % 0x400 * 0x200000 + n / 0x800 % 2 * 0x100000 +
    n / 0x1000 % 0x100 * 0x1000 + rd * 0x80 + Opcode.jal

section Distances

variable {w funct3 rs1 rs2 rd n : Nat}

/-- The immediate of a branch is its bits with their sign. -/
theorem immediate_b (hWord : w < 0x100000000) :
    Immediate.b w = signExtend (branchBits w : Nat) 13 := by
  unfold Immediate.b branchBits
  simp only [bitField_natCast, Nat.reducePow]
  refine congrArg (signExtend · 13) ?_
  omega

/-- That of a jump as well. -/
theorem immediate_j (hWord : w < 0x100000000) :
    Immediate.j w = signExtend (jumpBits w : Nat) 21 := by
  unfold Immediate.j jumpBits
  simp only [bitField_natCast, Nat.reducePow]
  refine congrArg (signExtend · 21) ?_
  omega

/-- The lowest bit tells whether a number is even, also when it is read as a signed number. -/
theorem signExtend_emod_two {bits : Nat} (hPos : 0 < bits) (n : Nat) :
    signExtend n bits % 2 = (n % 2 : Nat) := by
  have hSame := bitField_signExtend n (show 0 + 1 ≤ bits by omega)
  simp only [bitField, Nat.pow_eq, Nat.reducePow] at hSame
  omega

theorem evenOffset_signExtend {bits : Nat} (hEven : n % 2 = 0) (hPos : 0 < bits)
    (what : String) : evenOffset (signExtend n bits) what = .ok () := by
  unfold evenOffset
  rw [if_pos (by rw [signExtend_emod_two hPos, hEven]; rfl)]

/-- A branch with an even distance is encoded. -/
theorem b_ok (hFunct3 : funct3 < 8) (hRs1 : rs1 < 32) (hRs2 : rs2 < 32) (hEven : n % 2 = 0) :
    b funct3 rs1 rs2 (signExtend n 13) = .ok (branchWord funct3 rs1 rs2 n) := by
  unfold b
  rw [register_ok hRs1, register_ok hRs2, evenOffset_signExtend hEven (by decide),
    immediate_signExtend _ (by decide), slice_signExtend _ (by decide),
    slice_signExtend _ (by decide), slice_signExtend _ (by decide),
    slice_signExtend _ (by decide), cut_ok hFunct3]
  simp only [slice_natCast, Nat.reducePow]
  rfl

/-- A jump with an even distance is encoded. -/
theorem j_ok (hRd : rd < 32) (hEven : n % 2 = 0) :
    j rd (signExtend n 21) = .ok (jumpWord rd n) := by
  unfold j
  rw [register_ok hRd, evenOffset_signExtend hEven (by decide),
    immediate_signExtend _ (by decide), slice_signExtend _ (by decide),
    slice_signExtend _ (by decide), slice_signExtend _ (by decide),
    slice_signExtend _ (by decide)]
  simp only [slice_natCast, Nat.reducePow]
  rfl

/-- The bits of a branch, put back in their places, are the word. -/
theorem branchWord_branchBits (hWord : w < 0x100000000) (hOpcode : w % 0x80 = Opcode.branch) :
    branchWord (w / 0x1000 % 8) (w / 0x8000 % 0x20) (w / 0x100000 % 0x20) (branchBits w) = w := by
  have hSlices : branchBits w / 0x1000 % 2 = w / 0x80000000 ∧
      branchBits w / 0x20 % 0x40 = w / 0x2000000 % 0x40 ∧
      branchBits w / 2 % 0x10 = w / 0x100 % 0x10 ∧
      branchBits w / 0x800 % 2 = w / 0x80 % 2 := by
    unfold branchBits
    have hSign : w / 0x80000000 < 2 := by omega
    have hEleven := Nat.mod_lt (w / 0x80) (show 2 > 0 by decide)
    have hFive := Nat.mod_lt (w / 0x2000000) (show 0x40 > 0 by decide)
    have hOne := Nat.mod_lt (w / 0x100) (show 0x10 > 0 by decide)
    generalize w / 0x80000000 = sign at *
    generalize w / 0x80 % 2 = eleven at *
    generalize w / 0x2000000 % 0x40 = five at *
    generalize w / 0x100 % 0x10 = one at *
    refine ⟨?_, ?_, ?_, ?_⟩ <;> omega
  obtain ⟨hSign, hFive, hOne, hEleven⟩ := hSlices
  unfold branchWord
  rw [hSign, hFive, hOne, hEleven, ← hOpcode]
  -- the fields follow each other, so that each quotient is one of the quotient before it
  rw [show w / 0x80000000 = w / 0x2000000 / 0x40 by rw [Nat.div_div_eq_div_mul],
    show w / 0x2000000 = w / 0x100000 / 0x20 by rw [Nat.div_div_eq_div_mul],
    show w / 0x100000 = w / 0x8000 / 0x20 by rw [Nat.div_div_eq_div_mul],
    show w / 0x8000 = w / 0x1000 / 8 by rw [Nat.div_div_eq_div_mul],
    show w / 0x1000 = w / 0x100 / 0x10 by rw [Nat.div_div_eq_div_mul],
    show w / 0x100 = w / 0x80 / 2 by rw [Nat.div_div_eq_div_mul]]
  omega

/-- The bits of a jump, put back in their places, are the word. -/
theorem jumpWord_jumpBits (hWord : w < 0x100000000) (hOpcode : w % 0x80 = Opcode.jal) :
    jumpWord (w / 0x80 % 0x20) (jumpBits w) = w := by
  have hSlices : jumpBits w / 0x100000 % 2 = w / 0x80000000 ∧
      jumpBits w / 2 % 0x400 = w / 0x200000 % 0x400 ∧
      jumpBits w / 0x800 % 2 = w / 0x100000 % 2 ∧
      jumpBits w / 0x1000 % 0x100 = w / 0x1000 % 0x100 := by
    unfold jumpBits
    have hSign : w / 0x80000000 < 2 := by omega
    have hTwelve := Nat.mod_lt (w / 0x1000) (show 0x100 > 0 by decide)
    have hEleven := Nat.mod_lt (w / 0x100000) (show 2 > 0 by decide)
    have hOne := Nat.mod_lt (w / 0x200000) (show 0x400 > 0 by decide)
    generalize w / 0x80000000 = sign at *
    generalize w / 0x1000 % 0x100 = twelve at *
    generalize w / 0x100000 % 2 = eleven at *
    generalize w / 0x200000 % 0x400 = one at *
    refine ⟨?_, ?_, ?_, ?_⟩ <;> omega
  obtain ⟨hSign, hOne, hEleven, hTwelve⟩ := hSlices
  unfold jumpWord
  rw [hSign, hOne, hEleven, hTwelve, ← hOpcode]
  rw [show w / 0x80000000 = w / 0x200000 / 0x400 by rw [Nat.div_div_eq_div_mul],
    show w / 0x200000 = w / 0x100000 / 2 by rw [Nat.div_div_eq_div_mul],
    show w / 0x100000 = w / 0x1000 / 0x100 by rw [Nat.div_div_eq_div_mul],
    show w / 0x1000 = w / 0x80 / 0x20 by rw [Nat.div_div_eq_div_mul]]
  omega

/-- The fields of a branch, encoded again, are the word. -/
theorem b_fields (hWord : w < 0x100000000) (hOpcode : w % 0x80 = Opcode.branch) :
    b (w / 0x1000 % 8 : Nat) (w / 0x8000 % 0x20 : Nat) (w / 0x100000 % 0x20 : Nat)
      (Immediate.b w) = .ok w := by
  have hEven : branchBits w % 2 = 0 := by
    unfold branchBits
    omega
  rw [immediate_b hWord, b_ok (by omega) (by omega) (by omega) hEven,
    branchWord_branchBits hWord hOpcode]

/-- The fields of a jump, encoded again, are the word. -/
theorem j_fields (hWord : w < 0x100000000) (hOpcode : w % 0x80 = Opcode.jal) :
    j (w / 0x80 % 0x20 : Nat) (Immediate.j w) = .ok w := by
  have hEven : jumpBits w % 2 = 0 := by
    unfold jumpBits
    omega
  rw [immediate_j hWord, j_ok (by omega) hEven, jumpWord_jumpBits hWord hOpcode]

/-- The word of a branch, taken apart again. -/
theorem branchWord_spec (hFunct3 : funct3 < 8) (hRs1 : rs1 < 32) (hRs2 : rs2 < 32)
    (hEven : n % 2 = 0) (hRange : n < 0x2000) :
    branchWord funct3 rs1 rs2 n < 0x100000000 ∧
      branchWord funct3 rs1 rs2 n % 0x80 = Opcode.branch ∧
      branchWord funct3 rs1 rs2 n / 0x1000 % 8 = funct3 ∧
      branchBits (branchWord funct3 rs1 rs2 n) = n := by
  have hSum : n / 0x1000 % 2 * 0x1000 + n / 0x800 % 2 * 0x800 + n / 0x20 % 0x40 * 0x20 +
      n / 2 % 0x10 * 2 = n := by
    rw [show n / 0x1000 = n / 0x800 / 2 by rw [Nat.div_div_eq_div_mul],
      show n / 0x800 = n / 0x20 / 0x40 by rw [Nat.div_div_eq_div_mul],
      show n / 0x20 = n / 2 / 0x10 by rw [Nat.div_div_eq_div_mul]]
    omega
  unfold branchBits branchWord Opcode.branch
  have hSign := Nat.mod_lt (n / 0x1000) (show 2 > 0 by decide)
  have hEleven := Nat.mod_lt (n / 0x800) (show 2 > 0 by decide)
  have hFive := Nat.mod_lt (n / 0x20) (show 0x40 > 0 by decide)
  have hOne := Nat.mod_lt (n / 2) (show 0x10 > 0 by decide)
  generalize n / 0x1000 % 2 = sign at *
  generalize n / 0x800 % 2 = eleven at *
  generalize n / 0x20 % 0x40 = five at *
  generalize n / 2 % 0x10 = one at *
  obtain ⟨word, hWord⟩ : ∃ word, word = sign * 0x80000000 + five * 0x2000000 + rs2 * 0x100000 +
      rs1 * 0x8000 + funct3 * 0x1000 + one * 0x100 + eleven * 0x80 + 0b1100011 := ⟨_, rfl⟩
  rw [← hWord]
  have hAbove : word / 0x1000 = sign * 0x80000 + five * 0x2000 + rs2 * 0x100 + rs1 * 8 + funct3 :=
    by omega
  have hLow : word / 0x100 = word / 0x1000 * 0x10 + one := by omega
  have hTop : word / 0x2000000 = sign * 0x40 + five := by omega
  refine ⟨by omega, by omega, by omega, ?_⟩
  rw [show word / 0x80000000 = sign by omega, show word / 0x80 % 2 = eleven by omega,
    show word / 0x2000000 % 0x40 = five by omega, show word / 0x100 % 0x10 = one by omega]
  exact hSum

/-- The word of a jump, taken apart again. -/
theorem jumpWord_spec (hRd : rd < 32) (hEven : n % 2 = 0) (hRange : n < 0x200000) :
    jumpWord rd n < 0x100000000 ∧ jumpWord rd n % 0x80 = Opcode.jal ∧
      jumpBits (jumpWord rd n) = n := by
  have hSum : n / 0x100000 % 2 * 0x100000 + n / 0x1000 % 0x100 * 0x1000 +
      n / 0x800 % 2 * 0x800 + n / 2 % 0x400 * 2 = n := by
    rw [show n / 0x100000 = n / 0x1000 / 0x100 by rw [Nat.div_div_eq_div_mul],
      show n / 0x1000 = n / 0x800 / 2 by rw [Nat.div_div_eq_div_mul],
      show n / 0x800 = n / 2 / 0x400 by rw [Nat.div_div_eq_div_mul]]
    omega
  unfold jumpBits jumpWord Opcode.jal
  have hSign := Nat.mod_lt (n / 0x100000) (show 2 > 0 by decide)
  have hTwelve := Nat.mod_lt (n / 0x1000) (show 0x100 > 0 by decide)
  have hEleven := Nat.mod_lt (n / 0x800) (show 2 > 0 by decide)
  have hOne := Nat.mod_lt (n / 2) (show 0x400 > 0 by decide)
  generalize n / 0x100000 % 2 = sign at *
  generalize n / 0x1000 % 0x100 = twelve at *
  generalize n / 0x800 % 2 = eleven at *
  generalize n / 2 % 0x400 = one at *
  obtain ⟨word, hWord⟩ : ∃ word, word = sign * 0x80000000 + one * 0x200000 + eleven * 0x100000 +
      twelve * 0x1000 + rd * 0x80 + 0b1101111 := ⟨_, rfl⟩
  rw [← hWord]
  have hAbove : word / 0x1000 = sign * 0x80000 + one * 0x200 + eleven * 0x100 + twelve := by omega
  have hMiddle : word / 0x100000 = (sign * 0x400 + one) * 2 + eleven := by omega
  have hTop : word / 0x200000 = sign * 0x400 + one := by omega
  refine ⟨by omega, by omega, ?_⟩
  rw [show word / 0x80000000 = sign by omega, show word / 0x1000 % 0x100 = twelve by omega,
    show word / 0x100000 % 2 = eleven by omega, show word / 0x200000 % 0x400 = one by omega]
  exact hSum

end Distances

/-! What the decoder makes of a branch or a jump. -/

/-- What the encoder takes for a register is one of the 32. -/
theorem eq_register {index : Int} {n : Nat} (h : register index = .ok n) :
    n < 32 ∧ index = n := by
  unfold register at h
  split at h
  · have hIs := Except.ok.inj h
    omega
  · cases h

/-- A distance that the encoder takes is even. -/
theorem even_of_evenOffset {n bits : Nat} {what : String} (hPos : 0 < bits)
    (h : evenOffset (signExtend n bits) what = .ok ()) : n % 2 = 0 := by
  unfold evenOffset at h
  rw [signExtend_emod_two hPos] at h
  split at h
  · omega
  · cases h

/-- An immediate in range is what its low bits say. -/
theorem eq_signExtend_of_immediate {v : Int} {bits : Nat} {format : String}
    (h : immediate v (bits + 1) format = .ok ()) :
    ∃ n < Nat.pow 2 (bits + 1), v = signExtend (n : Nat) (bits + 1) := by
  have hTwice : Nat.pow 2 (bits + 1) = Nat.pow 2 bits * 2 := Nat.pow_succ 2 bits
  have hPos : 0 < Nat.pow 2 bits := Nat.pow_pos (by decide)
  unfold immediate at h
  dsimp only at h
  split at h
  · rename_i hRange
    simp only [signedRange, Nat.add_sub_cancel] at hRange
    have hLow : 0 ≤ v % Nat.pow 2 (bits + 1) := Int.emod_nonneg _ (by omega)
    have hHigh : v % Nat.pow 2 (bits + 1) < Nat.pow 2 (bits + 1) :=
      Int.emod_lt_of_pos _ (by omega)
    refine ⟨(v % Nat.pow 2 (bits + 1)).toNat, by omega, ?_⟩
    unfold signExtend
    rw [Int.toNat_of_nonneg hLow, Int.emod_bmod]
    exact (Int.bmod_eq_of_le (by omega) (by omega)).symm
  · cases h

end Encode

namespace Instruction

/-- A word whose fields spell a mnemonic is decoded to it. -/
theorem decode_of_spells {w : Nat} {m : Mnemonic} (hWord : w < 0x100000000)
    (h : (fieldsOf w).Spells m) : decode w = (fieldsOf w).withMnemonic m := by
  unfold decode
  rw [u32_natCast w hWord]
  dsimp only
  rw [h.mnemonic?]

open Encode

/-- A branch is spelled by its opcode and its variant. -/
theorem spells_of_branch {f : Instruction} {m : Mnemonic} (hFormat : m.format = .b)
    (hOpcode : f.opcode = Opcode.branch) (hFunct3 : f.funct3 = m.funct3) : f.Spells m := by
  cases m <;>
    first
      | cases hFormat; done
      | exact ⟨nofun, hOpcode, fun _ _ => hFunct3, nofun, nofun, nofun⟩

theorem word_fieldsOf (w : Nat) : (fieldsOf w).word = w := rfl

/-- A mnemonic chooses the immediate of its format. -/
theorem imm_withMnemonic_b (f : Instruction) {m : Mnemonic} (hFormat : m.format = .b) :
    (f.withMnemonic m).imm = Immediate.b f.word := by
  cases m <;> first | cases hFormat; done | simp only [withMnemonic, Mnemonic.format]

theorem imm_withMnemonic_jal (f : Instruction) :
    (f.withMnemonic .jal).imm = Immediate.j f.word := by
  simp only [withMnemonic, Mnemonic.format]

theorem imm_withMnemonic_u (f : Instruction) {m : Mnemonic} (hFormat : m.format = .u) :
    (f.withMnemonic m).imm = Immediate.u f.word := by
  cases m <;> first | cases hFormat; done | simp only [withMnemonic, Mnemonic.format]

/-- The amount of a shift stands where the second register does. -/
theorem imm_withMnemonic_shift (f : Instruction) {m : Mnemonic} (hShifts : m.shifts = true) :
    (f.withMnemonic m).imm = f.rs2 := by
  cases m <;> first | cases hShifts; done | simp only [withMnemonic]

/-- An encoded branch is decoded to its mnemonic and its distance. -/
theorem decode_b {m : Mnemonic} (hFormat : m.format = .b) {rs1 rs2 offset : Int} {w : Nat}
    (h : b m.funct3 rs1 rs2 offset = .ok w) :
    (decode w).mnemonic = m ∧ (decode w).imm = offset := by
  have hFunct3 : m.funct3 < 8 := by cases m <;> decide
  obtain ⟨r1, r2, n, hRs1, hRs2, hSmall, hEven, hOffset, hIs1, hIs2⟩ : ∃ r1 r2 n : Nat,
      r1 < 32 ∧ r2 < 32 ∧ n < 0x2000 ∧ n % 2 = 0 ∧ offset = signExtend n 13 ∧ rs1 = r1 ∧
        rs2 = r2 := by
    have hAll := h
    unfold b at hAll
    obtain ⟨r1, hRs1, hAll⟩ := bind_ok hAll
    obtain ⟨r2, hRs2, hAll⟩ := bind_ok hAll
    obtain ⟨_, hEven, hAll⟩ := bind_ok hAll
    obtain ⟨_, hRange, -⟩ := bind_ok hAll
    obtain ⟨n, hSmall, hOffset⟩ := eq_signExtend_of_immediate hRange
    rw [hOffset] at hEven
    exact ⟨r1, r2, n, (eq_register hRs1).1, (eq_register hRs2).1, hSmall,
      even_of_evenOffset (by decide) hEven, hOffset, (eq_register hRs1).2, (eq_register hRs2).2⟩
  rw [hOffset, hIs1, hIs2] at h
  obtain rfl : branchWord m.funct3 r1 r2 n = w :=
    Except.ok.inj ((b_ok hFunct3 hRs1 hRs2 hEven).symm.trans h)
  obtain ⟨hWord, hOpcode, hField, hBits⟩ := branchWord_spec hFunct3 hRs1 hRs2 hEven hSmall
  rw [decode_of_spells hWord (spells_of_branch hFormat hOpcode hField)]
  refine ⟨mnemonic_withMnemonic _ m, ?_⟩
  rw [imm_withMnemonic_b _ hFormat, word_fieldsOf, immediate_b hWord, hBits, hOffset]

/-- An encoded jump is decoded to its distance. -/
theorem decode_j {rd offset : Int} {w : Nat} (h : j rd offset = .ok w) :
    (decode w).mnemonic = .jal ∧ (decode w).imm = offset := by
  obtain ⟨r, n, hRd, hSmall, hEven, hOffset, hIs⟩ : ∃ r n : Nat, r < 32 ∧ n < 0x200000 ∧
      n % 2 = 0 ∧ offset = signExtend n 21 ∧ rd = r := by
    have hAll := h
    unfold j at hAll
    obtain ⟨r, hRd, hAll⟩ := bind_ok hAll
    obtain ⟨_, hEven, hAll⟩ := bind_ok hAll
    obtain ⟨_, hRange, -⟩ := bind_ok hAll
    obtain ⟨n, hSmall, hOffset⟩ := eq_signExtend_of_immediate hRange
    rw [hOffset] at hEven
    exact ⟨r, n, (eq_register hRd).1, hSmall, even_of_evenOffset (by decide) hEven, hOffset,
      (eq_register hRd).2⟩
  rw [hOffset, hIs] at h
  obtain rfl : jumpWord r n = w := Except.ok.inj ((j_ok hRd hEven).symm.trans h)
  obtain ⟨hWord, hOpcode, hBits⟩ := jumpWord_spec hRd hEven hSmall
  have hSpells : (fieldsOf (jumpWord r n)).Spells .jal :=
    ⟨nofun, hOpcode, nofun, nofun, nofun, nofun⟩
  rw [decode_of_spells hWord hSpells]
  refine ⟨mnemonic_withMnemonic _ .jal, ?_⟩
  rw [imm_withMnemonic_jal, word_fieldsOf, immediate_j hWord, hBits, hOffset]

/-- Where a branch or a jump goes, taken or not. -/
theorem branch_target {ins : Instruction} (h : ins.mnemonic.format = .b ∨ ins.mnemonic = .jal)
    (ops : Operands) (pc : Int) :
    ∃ taken, ins.branch ops pc = .ok (taken, u32 (pc + ins.imm)) := by
  unfold branch
  rcases h with hFormat | hJal
  · cases hMnemonic : ins.mnemonic <;> rw [hMnemonic] at hFormat <;>
      first
        | cases hFormat; done
        | exact ⟨_, rfl⟩
  · rw [hJal]
    exact ⟨_, rfl⟩

end Instruction

end AccelPipe

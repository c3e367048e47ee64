import AccelPipe.Proofs.Instruction.Decoded
import AccelPipe.Reference.Basic

/-! The reference machine and the pipeline compute on integers, from tables of their own, and cut
their results to 32 bits, as vectors of 32 bits would have it. Both come to the same words. -/
namespace AccelPipe

section Vectors

variable (a b : Int)

/-- A vector of 32 bits stands for the number with the same low bits. -/
theorem toInt_ofInt32 : (BitVec.ofInt 32 a).toInt = s32 a := BitVec.toInt_ofInt a

theorem toNat_ofInt32 : (BitVec.ofInt 32 a).toNat = u32 a := BitVec.toNat_ofInt a

theorem toInt_eq_s32_toNat (v : BitVec 32) : v.toInt = s32 v.toNat :=
  BitVec.toInt_eq_toNat_bmod v

/-- Sums are the same in either form. -/
theorem toInt_add32 : (BitVec.ofInt 32 a + BitVec.ofInt 32 b).toInt = s32 (a + b) := by
  rw [← BitVec.ofInt_add, toInt_ofInt32]

theorem toInt_sub32 : (BitVec.ofInt 32 a - BitVec.ofInt 32 b).toInt = s32 (a - b) := by
  rw [BitVec.toInt_sub, toInt_ofInt32, toInt_ofInt32]
  unfold s32
  rw [Int.bmod_sub_bmod]
  exact Int.sub_bmod_bmod

/-- The amount of a shift is the same in either form. -/
theorem shiftBy_eq : (BitVec.ofInt 32 b).toNat % 32 = Instruction.shiftBy b := by
  rw [toNat_ofInt32]
  unfold u32 Instruction.shiftBy
  omega

/-- Shifts are the same in either form. -/
theorem toInt_shiftLeft32 (n : Nat) :
    (BitVec.ofInt 32 a <<< n).toInt = s32 (a * Nat.pow 2 n) := by
  rw [BitVec.toInt_shiftLeft, toNat_ofInt32, Nat.shiftLeft_eq]
  unfold s32 u32
  rw [Int.natCast_mul, Int.toNat_of_nonneg (by omega)]
  exact Int.emod_mul_bmod a 0x100000000

theorem toInt_ushiftRight32 (n : Nat) :
    (BitVec.ofInt 32 a >>> n).toInt = s32 (u32 a / Nat.pow 2 n : Nat) := by
  rw [toInt_eq_s32_toNat, BitVec.toNat_ushiftRight, toNat_ofInt32, Nat.shiftRight_eq_div_pow]
  rfl

theorem toInt_sshiftRight32 (n : Nat) :
    ((BitVec.ofInt 32 a).sshiftRight n).toInt = s32 (s32 a / Nat.pow 2 n) := by
  have hWord : IsWord (((BitVec.ofInt 32 a).sshiftRight n).toInt) := by
    rw [toInt_eq_s32_toNat]
    exact isWord_s32 _
  rw [← show s32 _ = _ from hWord, BitVec.toInt_sshiftRight, toInt_ofInt32,
    Int.shiftRight_eq_div_pow]
  rfl

/-- The number of a condition, zero or one, is a word. -/
theorem s32_ite (P : Prop) [Decidable P] :
    s32 (if P then 1 else 0) = if P then 1 else 0 := by
  split <;> rfl

theorem toInt_ite32 (P : Prop) [Decidable P] :
    (if P then 1 else 0 : BitVec 32).toInt = if P then 1 else 0 := by
  split <;> rfl

/-- Comparisons are the same in either form. -/
theorem slt32 : (BitVec.ofInt 32 a).slt (BitVec.ofInt 32 b) = decide (s32 a < s32 b) := by
  rw [BitVec.slt_eq_decide, toInt_ofInt32, toInt_ofInt32]

theorem ult32 : (BitVec.ofInt 32 a).ult (BitVec.ofInt 32 b) = decide (u32 a < u32 b) := by
  rw [BitVec.ult_eq_decide, toNat_ofInt32, toNat_ofInt32]

theorem beq32 : (BitVec.ofInt 32 a == BitVec.ofInt 32 b) = (s32 a == s32 b) := by
  rw [← toInt_ofInt32, ← toInt_ofInt32, Bool.eq_iff_iff, beq_iff_eq, beq_iff_eq, BitVec.toInt_inj]

/-- So are operations on the single bits. -/
theorem toInt_xor32 :
    (BitVec.ofInt 32 a ^^^ BitVec.ofInt 32 b).toInt = s32 (u32 a ^^^ u32 b : Nat) := by
  rw [toInt_eq_s32_toNat, BitVec.toNat_xor, toNat_ofInt32, toNat_ofInt32]

theorem toInt_or32 :
    (BitVec.ofInt 32 a ||| BitVec.ofInt 32 b).toInt = s32 (u32 a ||| u32 b : Nat) := by
  rw [toInt_eq_s32_toNat, BitVec.toNat_or, toNat_ofInt32, toNat_ofInt32]

theorem toInt_and32 :
    (BitVec.ofInt 32 a &&& BitVec.ofInt 32 b).toInt = s32 (u32 a &&& u32 b : Nat) := by
  rw [toInt_eq_s32_toNat, BitVec.toNat_and, toNat_ofInt32, toNat_ofInt32]

/-- Clearing the lowest bit. -/
theorem toNat_even32 : (BitVec.ofInt 32 a &&& 0xfffffffe).toNat = u32 a / 2 * 2 := by
  have hMask : (0xfffffffe : BitVec 32).toNat = 0xfffffffe := rfl
  have hLess := u32_lt a
  have hHalf : (u32 a &&& 0xfffffffe) / 2 = u32 a / 2 := by
    rw [Nat.and_div_two]
    refine (Nat.and_two_pow_sub_one_eq_mod (u32 a / 2) 31).trans (Nat.mod_eq_of_lt ?_)
    omega
  have hEven : (u32 a &&& 0xfffffffe) % 2 = 0 := by
    have hBit := Nat.and_mod_two_pow (a := u32 a) (b := 0xfffffffe) (n := 1)
    rw [Nat.pow_one] at hBit
    rw [hBit]
    exact Nat.and_zero _
  rw [BitVec.toNat_and, toNat_ofInt32, hMask]
  omega

end Vectors

/-! Bits of integers, a negative number having ones without end, are bits of vectors. -/

section Bits

variable (a b : Int)

theorem ofInt_not32 : BitVec.ofInt 32 (~~~a) = ~~~BitVec.ofInt 32 a := by
  cases a with
  | ofNat m => exact BitVec.ofInt_negSucc_eq_not_ofNat
  | negSucc m =>
      rw [BitVec.ofInt_negSucc_eq_not_ofNat, BitVec.not_not]
      exact BitVec.ofInt_natCast 32 m

/-- Clearing the bits that are set in both is the difference of the sets. -/
theorem xor_and_self32 (x y : BitVec 32) : x ^^^ (x &&& y) = x &&& ~~~y := by
  ext i
  simp only [BitVec.getElem_xor, BitVec.getElem_and, BitVec.getElem_not]
  cases x[i] <;> cases y[i] <;> rfl

/-- The operations on the bits of integers are those on the bits of vectors. -/
theorem ofInt_and32 : BitVec.ofInt 32 (bitAnd a b) = BitVec.ofInt 32 a &&& BitVec.ofInt 32 b := by
  cases a with
  | ofNat m =>
      cases b with
      | ofNat n => exact BitVec.ofNat_and
      | negSucc n =>
          rw [BitVec.ofInt_negSucc_eq_not_ofNat]
          refine (BitVec.ofInt_natCast 32 _).trans ?_
          rw [BitVec.ofNat_xor, BitVec.ofNat_and, xor_and_self32]
          rfl
  | negSucc m =>
      cases b with
      | ofNat n =>
          rw [BitVec.ofInt_negSucc_eq_not_ofNat]
          refine (BitVec.ofInt_natCast 32 _).trans ?_
          rw [BitVec.ofNat_xor, BitVec.ofNat_and, xor_and_self32, BitVec.and_comm]
          rfl
      | negSucc n =>
          unfold bitAnd
          rw [BitVec.ofInt_negSucc_eq_not_ofNat, BitVec.ofInt_negSucc_eq_not_ofNat,
            BitVec.ofInt_negSucc_eq_not_ofNat, BitVec.ofNat_or, BitVec.not_or]

theorem ofInt_or32 : BitVec.ofInt 32 (bitOr a b) = BitVec.ofInt 32 a ||| BitVec.ofInt 32 b := by
  unfold bitOr
  rw [ofInt_not32, ofInt_and32, ofInt_not32, ofInt_not32, BitVec.not_and, BitVec.not_not,
    BitVec.not_not]

theorem ofInt_xor32 : BitVec.ofInt 32 (bitXor a b) = BitVec.ofInt 32 a ^^^ BitVec.ofInt 32 b := by
  cases a with
  | ofNat m =>
      cases b with
      | ofNat n => exact BitVec.ofNat_xor
      | negSucc n =>
          unfold bitXor
          rw [BitVec.ofInt_negSucc_eq_not_ofNat, BitVec.ofInt_negSucc_eq_not_ofNat,
            BitVec.ofNat_xor, BitVec.not_xor_right]
          rfl
  | negSucc m =>
      cases b with
      | ofNat n =>
          unfold bitXor
          rw [BitVec.ofInt_negSucc_eq_not_ofNat, BitVec.ofInt_negSucc_eq_not_ofNat,
            BitVec.ofNat_xor, BitVec.not_xor_left]
          rfl
      | negSucc n =>
          rw [BitVec.ofInt_negSucc_eq_not_ofNat, BitVec.ofInt_negSucc_eq_not_ofNat]
          refine (BitVec.ofInt_natCast 32 _).trans ?_
          rw [BitVec.ofNat_xor, ← BitVec.not_xor_left, ← BitVec.not_xor_right, BitVec.not_not]

/-- They see the low bits only. -/
theorem s32_bitAnd : s32 (bitAnd a b) = s32 (u32 a &&& u32 b : Nat) := by
  rw [← toInt_ofInt32, ofInt_and32, toInt_and32]

theorem s32_bitOr : s32 (bitOr a b) = s32 (u32 a ||| u32 b : Nat) := by
  rw [← toInt_ofInt32, ofInt_or32, toInt_or32]

theorem s32_bitXor : s32 (bitXor a b) = s32 (u32 a ^^^ u32 b : Nat) := by
  rw [← toInt_ofInt32, ofInt_xor32, toInt_xor32]

/-- Shifting an integer is multiplying it or dividing it. -/
theorem shiftLeft_eq_mul (n : Nat) : a <<< n = a * Nat.pow 2 n := Int.shiftLeft_eq a n

theorem shiftRight_eq_div (n : Nat) : a >>> n = a / Nat.pow 2 n := Int.shiftRight_eq_div_pow a n

/-- The low five bits. -/
theorem bitAnd_31 : (bitAnd b 31).toNat = Instruction.shiftBy b := by
  have hLow : ∀ n : Nat, n &&& 31 = n % 32 := fun n => Nat.and_two_pow_sub_one_eq_mod n 5
  unfold Instruction.shiftBy
  cases b with
  | ofNat n =>
      change ((n &&& 31 : Nat) : Int).toNat = ((n : Int) % 32).toNat
      rw [hLow]
      omega
  | negSucc n =>
      have hTurned : ∀ k < 32, 31 ^^^ k = 31 - k := by decide
      change ((31 ^^^ (31 &&& n) : Nat) : Int).toNat = (Int.negSucc n % 32).toNat
      rw [Nat.and_comm, hLow, hTurned _ (Nat.mod_lt n (by decide)), Int.negSucc_eq]
      omega

/-- All bits but the lowest. -/
theorem bitAnd_even (m : Nat) : (bitAnd m (~~~1)).toNat = m / 2 * 2 := by
  have hBit : m &&& 1 = m % 2 := Nat.and_two_pow_sub_one_eq_mod m 1
  have hSame : m ^^^ (m % 2) = m / 2 * 2 := by
    refine Nat.eq_of_testBit_eq fun i => ?_
    rw [Nat.testBit_xor, Nat.mul_comm]
    cases i with
    | zero => simp [Nat.testBit_zero]
    | succ i => simp [Nat.testBit_succ, Nat.div_eq_of_lt (Nat.mod_lt m (by decide : 0 < 2))]
  change ((m ^^^ (m &&& 1) : Nat) : Int).toNat = m / 2 * 2
  rw [hBit, hSame]
  exact Int.toNat_natCast _

end Bits

namespace Reference

variable {ins : Instruction} {ops : Operands} {a b pc : Int}

/-- Arithmetic instructions have one result. -/
theorem arithmeticResult_eq {v : Int} (hKind : ins.kind = .alu) (hA : IsWord a) (hB : IsWord b)
    (hImm : IsWord ins.imm) (hAlu : ins.alu ops pc = .ok v)
    (hFirst : (Operand.rs1, ins.rs1) ∈ ins.sources → ops.value .rs1 = a)
    (hSecond : (Operand.rs2, ins.rs2) ∈ ins.sources → ops.value .rs2 = b) :
    ∃ n, arithmeticResult ins a b pc = .ok n ∧ s32 n = v := by
  unfold IsWord at hA hB hImm
  unfold Instruction.sources at hFirst hSecond
  unfold Instruction.kind at hKind
  unfold Instruction.alu Instruction.second Instruction.format at hAlu
  unfold arithmeticResult
  cases hMnemonic : ins.mnemonic <;> rw [hMnemonic] at hKind hFirst hSecond hAlu <;>
    first
      | cases hKind; done
      | rw [← Except.ok.inj hAlu]
        refine ⟨_, rfl, ?_⟩
        simp only [hFirst, hSecond, List.mem_cons, true_or, or_true, Mnemonic.format, reduceCtorEq,
          if_true, if_false, bitAnd_31, shiftLeft_eq_mul, shiftRight_eq_div,
          Nat.shiftRight_eq_div_pow, Nat.pow_eq, s32_bitAnd, s32_bitOr, s32_bitXor, s32_ite, hA,
          hB, hImm]

/-- Branches and jumps go to one place and have one link value. -/
theorem jump_eq {taken : Bool} {target : Nat} (hKind : ins.kind = .branch) (hA : IsWord a)
    (hB : IsWord b) (hBranch : ins.branch ops pc = .ok (taken, target))
    (hFirst : (Operand.rs1, ins.rs1) ∈ ins.sources → ops.value .rs1 = a)
    (hSecond : (Operand.rs2, ins.rs2) ∈ ins.sources → ops.value .rs2 = b) :
    jump ins a b pc = .ok
      ⟨if ins.writesRd then some (s32 (pc + 4)) else none, none,
        if taken then target else u32 (pc + 4)⟩ := by
  unfold IsWord at hA hB
  unfold Instruction.sources at hFirst hSecond
  unfold Instruction.kind at hKind
  unfold Instruction.branch at hBranch
  unfold jump Instruction.writesRd
  cases hMnemonic : ins.mnemonic <;> rw [hMnemonic] at hKind hFirst hSecond hBranch <;>
    first
      | cases hKind; done
      | obtain ⟨rfl, rfl⟩ := Prod.mk.inj (Except.ok.inj hBranch)
        simp only [hFirst, hSecond, List.mem_cons, true_or, or_true, Bool.false_eq_true, if_true,
          if_false, condition?, bitAnd_even, hA, hB]

end Reference

end AccelPipe

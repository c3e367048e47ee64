import AccelPipe.Bits

/-! Registers and memory hold the signed numbers of 32 bits. Such a number is its own signed view,
and 32-bit vectors compute on signed views. -/
namespace AccelPipe

theorem isWord_iff {v : Int} : IsWord v ↔ -0x80000000 ≤ v ∧ v < 0x80000000 := by
  constructor
  · intro hWord
    rw [← show s32 v = v from hWord]
    exact s32_bounds v
  · rintro ⟨hLow, hHigh⟩
    unfold IsWord s32
    exact Int.bmod_eq_of_le (by omega) (by omega)

theorem u32_s32 (v : Int) : u32 (s32 v) = u32 v := by
  unfold u32 s32
  exact congrArg Int.toNat Int.bmod_emod

/-- The signed range of a width of at most 32 bits consists of words. -/
theorem isWord_of_signedRange {v : Int} {bits : Nat} (hPos : 0 < bits) (hBits : bits ≤ 32)
    (hLow : (signedRange bits).1 ≤ v) (hHigh : v ≤ (signedRange bits).2) : IsWord v := by
  have hPow : Nat.pow 2 (bits - 1) ≤ Nat.pow 2 31 :=
    Nat.pow_le_pow_right (by decide) (by omega)
  have hTop : Nat.pow 2 31 = 0x80000000 := rfl
  simp only [signedRange] at hLow hHigh
  rw [isWord_iff]
  omega

theorem signExtend_range {bits : Nat} (hPos : 0 < bits) (v : Int) :
    (signedRange bits).1 ≤ signExtend v bits ∧ signExtend v bits ≤ (signedRange bits).2 := by
  obtain ⟨n, rfl⟩ : ∃ n, bits = n + 1 := ⟨bits - 1, by omega⟩
  have hPow : Nat.pow 2 (n + 1) = Nat.pow 2 n * 2 := Nat.pow_succ 2 n
  have hOne : 0 < Nat.pow 2 n := Nat.pow_pos (by decide)
  have hLow := @Int.le_bmod v (Nat.pow 2 (n + 1)) (by omega)
  have hHigh := @Int.bmod_lt v (Nat.pow 2 (n + 1)) (by omega)
  simp only [signedRange, signExtend, Nat.add_sub_cancel]
  omega

theorem isWord_signExtend {bits : Nat} (hPos : 0 < bits) (hBits : bits ≤ 32) (v : Int) :
    IsWord (signExtend v bits) :=
  isWord_of_signedRange hPos hBits (signExtend_range hPos v).1 (signExtend_range hPos v).2

theorem clamp_range (bits : Nat) (v : Int) :
    (signedRange bits).1 ≤ (clamp v bits).1 ∧ (clamp v bits).1 ≤ (signedRange bits).2 := by
  have hOne : 0 < Nat.pow 2 (bits - 1) := Nat.pow_pos (by decide)
  have hOrder : (signedRange bits).1 ≤ (signedRange bits).2 := by
    simp only [signedRange]
    omega
  by_cases hTop : (signedRange bits).2 < v
  · simp only [clamp, if_pos hTop]
    omega
  · by_cases hBottom : v < (signedRange bits).1
    · simp only [clamp, if_neg hTop, if_pos hBottom]
      omega
    · simp only [clamp, if_neg hTop, if_neg hBottom]
      omega

/-- The upper and the lower part of a constant make up the constant. -/
theorem splitConstant_sum (v : Int) :
    (splitConstant v).1 < 0x100000 ∧
      u32 (s32 ((splitConstant v).1 * 0x1000) + (splitConstant v).2) = u32 v := by
  have hLow : signExtend (u32 v) 12 % 0x1000 = (u32 v : Int) % 0x1000 := Int.bmod_emod
  have hTop : ∀ x : Int, s32 x % 0x100000000 = x % 0x100000000 := fun x => Int.bmod_emod
  have hSmall := u32_lt v
  unfold splitConstant
  dsimp only
  generalize signExtend (u32 v) 12 = low at hLow ⊢
  have hUpper := u32_lt (u32 v - low)
  have hParts : ((u32 (u32 v - low) / 0x1000 : Nat) : Int) * 0x1000 = u32 (u32 v - low) := by
    unfold u32 at hLow ⊢
    omega
  refine ⟨by omega, ?_⟩
  rw [hParts]
  have hSum := hTop (u32 (u32 v - low))
  generalize s32 (u32 (u32 v - low)) = upper at hSum ⊢
  unfold u32 at hSum hLow ⊢
  omega

theorem splitConstant_small (v : Int) :
    -0x800 ≤ (splitConstant v).2 ∧ (splitConstant v).2 < 0x800 := by
  have hRange := signExtend_range (show 0 < 12 by decide) (u32 v)
  unfold splitConstant
  dsimp only
  generalize signExtend (u32 v) 12 = low at hRange ⊢
  change -0x800 ≤ low ∧ low ≤ 0x7ff at hRange
  omega

/-! Sums of lists. -/

theorem total_append (xs ys : List Int) : total (xs ++ ys) = total xs + total ys := by
  unfold total
  induction xs with
  | nil => exact (Int.zero_add _).symm
  | cons x xs ih => rw [List.cons_append, List.foldr_cons, List.foldr_cons, ih, Int.add_assoc]

theorem total_flatMap {α : Type} (f : α → List Int) (xs : List α) :
    total (xs.flatMap f) = total (xs.map fun x => total (f x)) := by
  induction xs with
  | nil => rfl
  | cons x xs ih =>
      rw [List.flatMap_cons, total_append, ih]
      rfl

theorem dot_map_range (ks : List Int) (f : Nat → Int) (n : Nat) :
    dot ks ((List.range n).map f) = total ((List.range n).map fun k => ks.getD k 0 * f k) := by
  induction n generalizing ks f with
  | zero => cases ks <;> rfl
  | succ n ih =>
      rw [List.range_succ_eq_map, List.map_cons, List.map_cons, List.map_map, List.map_map]
      cases ks with
      | nil =>
          have hRest := ih [] (f ∘ Nat.succ)
          simp only [List.getD_nil, Int.zero_mul] at hRest ⊢
          exact hRest.trans (Int.zero_add _).symm
      | cons k ks => exact congrArg (k * f 0 + ·) (ih ks (f ∘ Nat.succ))

end AccelPipe

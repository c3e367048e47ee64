import AccelPipe.Accelerator.Basic
import AccelPipe.Proofs.Bits
import Mathlib.Algebra.Order.Ring.Int
import Mathlib.Tactic.Positivity

/-! The overflow rules as arithmetic: a sum that does not fit becomes the nearest number that does,
or the one that differs by a multiple of a power of two. Fitting a number twice is fitting it once
at the smaller width. -/
namespace AccelPipe

/-- What a number becomes at a width under one of the two rules. -/
def fitted (v : Int) (bits : Nat) (clamps : Bool) : Int :=
  if clamps then max (-2 ^ (bits - 1)) (min v (2 ^ (bits - 1) - 1)) else v.bmod (2 ^ bits)

/-- The numbers that a width has room for. -/
def Fits (v : Int) (bits : Nat) : Prop := -2 ^ (bits - 1) ≤ v ∧ v ≤ 2 ^ (bits - 1) - 1

variable {v : Int} {bits : Nat}

theorem fits_iff_signedRange : Fits v bits ↔ (signedRange bits).1 ≤ v ∧ v ≤ (signedRange bits).2 := by
  unfold Fits signedRange
  push_cast [Nat.pow_eq]
  rfl

theorem fits_zero (bits : Nat) : Fits 0 bits := by
  have hPower : (0 : Int) < 2 ^ (bits - 1) := by positivity
  unfold Fits
  omega

theorem Fits.mono {more : Nat} (h : Fits v bits) (hMore : bits ≤ more) : Fits v more := by
  have hPower : (2 : Int) ^ (bits - 1) ≤ 2 ^ (more - 1) :=
    pow_le_pow_right₀ (by decide) (by omega)
  unfold Fits at h ⊢
  omega

theorem fit_value (v : Int) (bits : Nat) (clamps : Bool) :
    (Precision.fit v bits clamps).1 = fitted v bits clamps := by
  unfold Precision.fit fitted
  cases clamps with
  | false => rfl
  | true =>
      have hPower : ((Nat.pow 2 (bits - 1) : Nat) : Int) = 2 ^ (bits - 1) := by
        push_cast [Nat.pow_eq]
        rfl
      simp only [if_true, clamp, signedRange, hPower]
      split <;> rename_i hHigh
      · have : (0 : Int) < 2 ^ (bits - 1) := by positivity
        dsimp only
        omega
      · split <;> dsimp only <;> omega

theorem fits_fitted (hPos : 0 < bits) (v : Int) (clamps : Bool) : Fits (fitted v bits clamps) bits := by
  rw [← fit_value, fits_iff_signedRange]
  unfold Precision.fit
  cases clamps with
  | false => exact signExtend_range hPos v
  | true => exact clamp_range bits v

theorem Fits.fitted_eq (h : Fits v bits) (hPos : 0 < bits) (clamps : Bool) :
    fitted v bits clamps = v := by
  obtain ⟨hLow, hHigh⟩ := h
  unfold fitted
  cases clamps with
  | true =>
      simp only [if_true]
      omega
  | false =>
      have hDouble : 2 ^ bits = 2 ^ (bits - 1) * 2 := by
        rw [← Nat.pow_succ, Nat.succ_eq_add_one, Nat.sub_add_cancel hPos]
      simp only [Bool.false_eq_true, if_false]
      refine Int.bmod_eq_of_le ?_ ?_ <;> rw [hDouble] <;> push_cast <;> omega

/-- A number stays as it is exactly if there is room for it. -/
theorem fitted_eq_self_iff (hPos : 0 < bits) (v : Int) (clamps : Bool) :
    fitted v bits clamps = v ↔ Fits v bits :=
  ⟨fun h => h ▸ fits_fitted hPos v clamps, fun h => h.fitted_eq hPos clamps⟩

/-- Under either rule the smaller one of two widths decides. -/
theorem fitted_fitted {a b : Nat} (hA : 0 < a) (hB : 0 < b) (v : Int) (clamps : Bool) :
    fitted (fitted v a clamps) b clamps = fitted v (min a b) clamps := by
  rcases Nat.le_total a b with hLe | hLe
  · rw [Nat.min_eq_left hLe]
    exact ((fits_fitted hA v clamps).mono hLe).fitted_eq hB clamps
  · rw [Nat.min_eq_right hLe]
    unfold fitted
    cases clamps with
    | false => exact Int.bmod_bmod_of_dvd (Nat.pow_dvd_pow 2 hLe)
    | true =>
        have hPower : (2 : Int) ^ (b - 1) ≤ 2 ^ (a - 1) :=
          pow_le_pow_right₀ (by decide) (by omega)
        simp only [if_true]
        omega

/-- The flag tells whether the number is another one. -/
theorem fit_changed (v : Int) (bits : Nat) (clamps : Bool) :
    (Precision.fit v bits clamps).2 = true ↔ fitted v bits clamps ≠ v := by
  rw [← fit_value]
  unfold Precision.fit
  cases clamps with
  | false => exact bne_iff_ne
  | true =>
      simp only [if_true, clamp]
      split
      · simp only [true_iff]
        omega
      · split
        · simp only [true_iff]
          omega
        · simp

namespace Precision

variable (p : Precision) (sum : Int) (rule : Option Bool)

theorem acc_outcome : (p.outcome sum rule).acc = fitted sum p.accBits (rule.getD p.saturate) :=
  fit_value _ _ _

variable {p} (hPos : 0 < p.accBits)
include hPos

/-- On the way through the accumulator a sum becomes a number of the narrower of accumulator and
register. -/
theorem value_outcome :
    (p.outcome sum rule).result.value =
      fitted sum (min p.accBits 32) (rule.getD p.saturate) := by
  have hOnce : (p.outcome sum rule).result.value =
      fitted (p.outcome sum rule).acc 32 (rule.getD p.saturate) := fit_value _ _ _
  rw [hOnce, acc_outcome, fitted_fitted hPos (by decide)]

/-- The flag is raised at one of the widths exactly if the register gets another number than the
sum. -/
theorem saturated_outcome :
    (p.outcome sum rule).result.saturated = true ↔ (p.outcome sum rule).result.value ≠ sum := by
  have hEither : (p.outcome sum rule).result.saturated = true ↔
      fitted sum p.accBits (rule.getD p.saturate) ≠ sum ∨
        fitted (p.outcome sum rule).acc 32 (rule.getD p.saturate) ≠ (p.outcome sum rule).acc := by
    rw [← fit_changed, ← fit_changed]
    exact Bool.or_eq_true_iff
  rw [hEither, value_outcome sum rule hPos, acc_outcome]
  by_cases hAcc : fitted sum p.accBits (rule.getD p.saturate) = sum
  · rw [← fitted_fitted hPos (by decide), hAcc]
    exact or_iff_right fun hNot => hNot rfl
  · -- a sum that the accumulator has no room for is not in the narrower of the two either
    refine iff_of_true (.inl hAcc) fun hValue => hAcc ?_
    rw [fitted_eq_self_iff (by omega)] at hValue
    exact (hValue.mono (Nat.min_le_left _ _)).fitted_eq hPos _

end Precision

end AccelPipe

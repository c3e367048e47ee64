import AccelPipe.Proofs.Machine.Tally
import AccelPipe.Proofs.Precision

/-! Saturation is exact. Whatever the units have done before, a sum that leaves an accumulator is
fitted once, to the narrower of accumulator and register, and it is reported and counted as
saturated exactly if the register gets another number. -/
namespace AccelPipe

/-- The sum of an operation before any overflow rule, the unit that forms it, and whether that
operation clamps it. -/
structure ExactSum where
  unit : Accelerator
  value : Int
  clamps : Bool
deriving DecidableEq

/-- The square that an operation multiplies with the kernel: the words that it has read, or the
kept rows moved by one word. -/
def Conv2d.windowOf (u : Conv2d) (o : Origin) (words : List Int) : List Int :=
  if u.slides o then u.shifted words else words

namespace Units

/-- The exact sum of an operation that adds products. -/
def exactSum? (u : Units) (ins : Instruction) (ops : Operands) (words : List Int) :
    Option ExactSum :=
  let p := u.precision
  let product := p.operand (ops.value .rs1) * p.operand (ops.value .rs2)
  match ins.mnemonic with
  | .mac => some ⟨.mac, ops.value .rd + product, true⟩
  | .macW => some ⟨.mac, ops.value .rd + product, false⟩
  | .maca => some ⟨.mac, u.mac.acc + product, p.saturate⟩
  | .macz => some ⟨.mac, product, p.saturate⟩
  | .fir =>
    let samples := p.operand (ops.value .rs1) :: u.fir.samples.dropLast
    some ⟨.fir, dot u.fir.coefficients samples, p.saturate⟩
  | .conv2d =>
    let window := u.conv2d.windowOf ⟨ops.value .rs1, ops.value .rs2⟩ words
    some ⟨.conv2d, dot u.conv2d.kernel (window.map p.operand), p.saturate⟩
  | _ => none

variable {u : Units} {word : Int} {ops : Operands} {words : List Int}

/-- A convolution has all the words that it needs if it has as many as it asks for. -/
theorem convolve_ok {ins : Instruction} (hLoads : Conv2d.loads ins = false)
    (hWords : words.length = (u.conv2d.reads ins ops).length) :
    (u.conv2d.execute u.precision ins ops words).1 =
      .ok (u.precision.outcome
        (dot u.conv2d.kernel ((u.conv2d.windowOf (Conv2d.originOf ops) words).map
          u.precision.operand)) none).result := by
  unfold Conv2d.reads at hWords
  unfold Conv2d.execute Conv2d.windowOf
  rw [hLoads] at hWords ⊢
  simp only [Bool.false_eq_true, if_false] at hWords ⊢
  by_cases hSlides : u.conv2d.slides (Conv2d.originOf ops) = true
  · rw [if_pos hSlides, List.length_map, List.length_range] at hWords
    rw [if_pos hSlides, if_pos hSlides, if_neg (by omega)]
    rfl
  · rw [if_neg hSlides, if_neg hSlides]
    rfl

/-- An operation that adds products answers with its exact sum, fitted. -/
theorem execute_exactSum {s : ExactSum}
    (h : u.exactSum? (.decode word) ops words = some s)
    (hWords : words.length = (u.reads s.unit (.decode word) ops).length) :
    (u.execute s.unit (.decode word) ops words).1 =
      .ok (u.precision.outcome s.value (some s.clamps)).result := by
  have hVariant := Instruction.funct3_decode word
  unfold Instruction.kind at hVariant
  unfold exactSum? at h
  dsimp only at h
  cases hMnemonic : (Instruction.decode word).mnemonic <;> rw [hMnemonic] at h hVariant <;>
    cases h
  case mac | macW | maca | macz =>
    unfold execute Mac.execute Mac.variant?
    rw [hVariant rfl]
    rfl
  case conv2d =>
    refine convolve_ok ?_ hWords
    unfold Conv2d.loads
    rw [hVariant rfl]
    rfl
  case fir =>
    unfold execute Fir.execute Fir.loads Fir.clears
    rw [hVariant rfl]
    rfl

/-! What the units keep, whatever happens to them. -/

/-- An operation on some words, a store that has reached memory, or a reset of one unit. -/
inductive Event where
  | operate (acc : Accelerator) (ins : Instruction) (ops : Operands) (words : List Int)
  | store (addr : Int)
  | reset (acc : Accelerator)

def happen (u : Units) : Event → Units
  | .operate acc ins ops words => (u.execute acc ins ops words).2
  | .store addr => u.snoop addr
  | .reset acc => u.reset acc

/-- The accumulators that outlast an operation fit their width. -/
structure Bounded (u : Units) : Prop where
  width : 0 < u.precision.accBits
  mac : Fits u.mac.acc u.precision.accBits
  fir : Fits u.fir.acc u.precision.accBits

theorem precision_happen (u : Units) (e : Event) : (u.happen e).precision = u.precision := by
  cases e with
  | operate acc ins ops words =>
      have hFrame := congrArg Units.precision (u.frame_execute acc ins ops words)
      exact hFrame
  | store addr =>
      have hFrame := congrArg Units.precision (u.frame_snoop addr)
      exact hFrame
  | reset acc => cases acc <;> rfl

theorem precision_foldl (u : Units) (events : List Event) :
    (events.foldl happen u).precision = u.precision := by
  induction events generalizing u with
  | nil => rfl
  | cons e events ih => rw [List.foldl_cons, ih, precision_happen]

namespace Bounded

theorem outcome (h : u.Bounded) (sum : Int) (rule : Option Bool) :
    Fits (u.precision.outcome sum rule).acc u.precision.accBits := by
  rw [Precision.acc_outcome]
  exact fits_fitted h.width _ _

theorem execute (h : u.Bounded) (acc : Accelerator) (ins : Instruction) (ops : Operands)
    (words : List Int) : (u.execute acc ins ops words).2.Bounded := by
  cases acc with
  | mac =>
      unfold Units.execute Mac.execute
      dsimp only
      split
      · exact h
      · exact ⟨h.width, h.outcome _ _, h.fir⟩
  | fir =>
      unfold Units.execute Fir.execute
      dsimp only
      split
      · exact ⟨h.width, h.mac, h.fir⟩
      · split
        · exact ⟨h.width, h.mac, fits_zero _⟩
        · exact ⟨h.width, h.mac, h.outcome _ _⟩
  | relu | conv2d | pool => exact ⟨h.width, h.mac, h.fir⟩

theorem happen (h : u.Bounded) (e : Event) : (u.happen e).Bounded := by
  cases e with
  | operate acc ins ops words => exact h.execute acc ins ops words
  | store addr => exact ⟨h.width, h.mac, h.fir⟩
  | reset acc =>
      cases acc with
      | mac => exact ⟨h.width, fits_zero _, h.fir⟩
      | fir => exact ⟨h.width, h.mac, fits_zero _⟩
      | relu | conv2d | pool => exact ⟨h.width, h.mac, h.fir⟩

theorem foldl (h : u.Bounded) (events : List Event) :
    (events.foldl Units.happen u).Bounded := by
  induction events generalizing u with
  | nil => exact h
  | cons e events ih => exact ih (h.happen e)

end Bounded

theorem bounded_fresh {c : Config} (hValid : c.Valid) : (fresh c).Bounded :=
  ⟨hValid.accBits_pos, fits_zero _, fits_zero _⟩

/-- After whatever has happened to the units of a valid configuration, the stored accumulators are
in range. An operation that adds products then returns its exact sum fitted to the narrower of
accumulator and register, reports it as saturated exactly if it is another number, and counts it
once in that case. -/
theorem saturation_exact {c : Config} (hValid : c.Valid) (events : List Event) :
    let p := c.precision
    let u := events.foldl happen (fresh c)
    (p.accRange.1 ≤ u.mac.acc ∧ u.mac.acc ≤ p.accRange.2) ∧
    (p.accRange.1 ≤ u.fir.acc ∧ u.fir.acc ≤ p.accRange.2) ∧
    ∀ word ops words s, u.exactSum? (.decode word) ops words = some s →
      words.length = (u.reads s.unit (.decode word) ops).length →
      ∃ r, (u.execute s.unit (.decode word) ops words).1 = .ok r ∧
        r.value = fitted s.value (min p.accBits 32) s.clamps ∧
        (r.saturated = true ↔ r.value ≠ s.value) ∧
        ((u.execute s.unit (.decode word) ops words).2.tally s.unit).saturations =
          (u.tally s.unit).saturations + if r.value = s.value then 0 else 1 := by
  intro p u
  have hPrecision : u.precision = p := precision_foldl _ _
  have hBounded : u.Bounded := (bounded_fresh hValid).foldl events
  refine ⟨?_, ?_, fun word ops words s hSum hWords => ?_⟩
  · rw [← hPrecision]
    exact fits_iff_signedRange.mp hBounded.mac
  · rw [← hPrecision]
    exact fits_iff_signedRange.mp hBounded.fir
  · have hResult := execute_exactSum hSum hWords
    have hFlag := Precision.saturated_outcome s.value (some s.clamps) hBounded.width
    refine ⟨_, hResult, ?_, hFlag, ?_⟩
    · rw [← hPrecision]
      exact Precision.value_outcome s.value (some s.clamps) hBounded.width
    · rw [execute_tally hResult, if_pos rfl]
      refine congrArg ((u.tally s.unit).saturations + ·) ?_
      by_cases hSame : (u.precision.outcome s.value (some s.clamps)).result.value = s.value
      · rw [if_pos hSame, if_neg fun hSaturated => hFlag.mp hSaturated hSame]
      · rw [if_neg hSame, if_pos (hFlag.mpr hSame)]

/-- A first sum fits an accumulator of 40 bits and no register, a second one fits neither; each
counts once. -/
theorem saturation_exact_of_wide_accumulator :
    let c : Config := { accWidth := some 40 }
    let first : Operands := { rs1 := some 0x100000, rs2 := some 0x40000 }
    let second : Operands := { rs1 := some 0x100000, rs2 := some 0x80000 }
    let u := [Event.operate .mac (.decode 0x300c) first []].foldl happen (fresh c)
    c.Valid ∧ (u.tally .mac).saturations = 1 ∧
      u.exactSum? (.decode 0x200c) second [] = some ⟨.mac, 0xc000000000, true⟩ ∧
      ([] : List Int).length = (u.reads .mac (.decode 0x200c) second).length ∧
      ∃ r, (u.execute .mac (.decode 0x200c) second []).1 = .ok r ∧ r.value = 0x7fffffff ∧
        r.saturated = true ∧
        ((u.execute .mac (.decode 0x200c) second []).2.tally .mac).saturations = 2 := by
  intro c first second u
  have hValid : c.Valid := by constructor <;> decide
  have hOnce : (u.tally .mac).saturations = 1 := by decide +kernel
  have hSum : u.exactSum? (.decode 0x200c) second [] = some ⟨.mac, 0xc000000000, true⟩ := by
    decide +kernel
  obtain ⟨-, -, hAll⟩ :=
    saturation_exact hValid [Event.operate .mac (.decode 0x300c) first []]
  obtain ⟨r, hResult, hValue, hFlag, hCount⟩ := hAll 0x200c second [] _ hSum rfl
  have hIs : r.value = 0x7fffffff := hValue.trans (by decide +kernel)
  refine ⟨hValid, hOnce, hSum, rfl, r, hResult, hIs, hFlag.mpr (by rw [hIs]; decide), ?_⟩
  rw [hIs] at hCount
  exact hCount.trans (by rw [show (u.tally .mac).saturations = 1 from hOnce]; decide)

end Units

end AccelPipe

import AccelPipe.Proofs.Precision
import AccelPipe.Proofs.Reference.Accelerators
import Mathlib.Algebra.Order.BigOperators.Group.List
import Mathlib.Data.Rat.Floor
import Mathlib.Tactic.FieldSimp
import Mathlib.Tactic.NormNum

/-! Pooling stays inside its window: whatever the rounding, the mean of some words lies between the
least and the greatest of them, so there is always room for it. Sliding operations walk along the
row of the window that was last given by registers. -/
namespace AccelPipe

/-! Rounding. -/

/-- The integer that a mean becomes. -/
def Rounding.of (rounding : Rounding) (mean : ℚ) : Int :=
  match rounding with
  | .floor => ⌊mean⌋
  | .nearest => ⌊mean + 1 / 2⌋

/-- Rounding does not leave bounds that are integers. -/
theorem Rounding.of_within {least greatest : Int} {mean : ℚ} (hLow : least ≤ mean)
    (hHigh : mean ≤ greatest) (rounding : Rounding) :
    least ≤ rounding.of mean ∧ rounding.of mean ≤ greatest := by
  cases rounding with
  | floor => exact ⟨Int.le_floor.mpr hLow, Int.floor_le_iff.mpr (by linarith)⟩
  | nearest => exact ⟨Int.le_floor.mpr (by linarith), Int.floor_le_iff.mpr (by linarith)⟩

/-- The mean of the unit is the mean, rounded. -/
theorem average_eq (sum : Int) {count : Nat} (hPos : 0 < count) (rounding : Rounding) :
    average sum count (rounding == .nearest) = rounding.of (sum / count) := by
  cases rounding with
  | floor =>
      have hFloor := Rat.floor_intCast_div_natCast sum count
      exact (Int.fdiv_eq_ediv_of_nonneg sum (by omega)).trans hFloor.symm
  | nearest =>
      have hFloor := Rat.floor_intCast_div_natCast (2 * sum + count) (2 * count)
      have hHalf : ((2 * sum + count : Int) : ℚ) / (2 * count : Nat) = sum / count + 1 / 2 := by
        push_cast
        field_simp
      rw [hHalf] at hFloor
      exact (Int.fdiv_eq_ediv_of_nonneg (2 * sum + count) (by omega)).trans hFloor.symm

/-- A mean lies between the bounds of its numbers. -/
theorem mean_within {words : List Int} (hSome : 0 < words.length) {least greatest : Int}
    (h : ∀ v ∈ words, least ≤ v ∧ v ≤ greatest) :
    (least : ℚ) ≤ words.sum / words.length ∧ (words.sum : ℚ) / words.length ≤ greatest := by
  have hCount : (0 : ℚ) < words.length := by exact_mod_cast hSome
  have hLow := List.card_nsmul_le_sum words least fun v hV => (h v hV).1
  have hHigh := List.sum_le_card_nsmul words greatest fun v hV => (h v hV).2
  rw [nsmul_eq_mul, mul_comm] at hLow hHigh
  exact ⟨(le_div_iff₀ hCount).mpr (by exact_mod_cast hLow),
    (div_le_iff₀ hCount).mpr (by exact_mod_cast hHigh)⟩

/-! One operation. -/

/-- The mode that a pooling instruction asks for; one that does not ask for any gets the configured
one. -/
def Config.poolModeOf (c : Config) (m : Mnemonic) : PoolMode :=
  match m with
  | .poolMax => .max
  | .poolAvg => .avg
  | _ => c.poolMode

/-- What the operations of a pooling unit leave alone. -/
structure Pool.Built (c : Config) (u : Pool) : Prop where
  size : u.size = c.poolWindow
  stride : u.stride = c.poolStride
  mode : u.mode = c.poolMode
  rounding : u.rounding = c.poolRounding

/-- An accumulator is at least as wide as an operand. -/
theorem Config.Valid.operandBits_le {c : Config} (hValid : c.Valid) :
    c.precision.operandBits ≤ c.precision.accBits := by
  unfold precision
  dsimp only
  cases hGiven : c.accWidth with
  | none => exact Nat.le_refl _
  | some width => exact (hValid.accWidth width hGiven).1

theorem Fits.between {a b v : Int} {bits : Nat} (hA : Fits a bits) (hB : Fits b bits) (hLow : a ≤ v)
    (hHigh : v ≤ b) : Fits v bits :=
  ⟨hA.1.trans hLow, hHigh.trans hB.2⟩

/-- Operands fit their width. -/
theorem Precision.fits_operand {p : Precision} (hPos : 0 < p.operandBits) {words : List Int}
    {v : Int} (h : v ∈ words.map p.operand) : Fits v p.operandBits := by
  obtain ⟨word, -, rfl⟩ := List.mem_map.mp h
  exact fits_iff_signedRange.mpr (signExtend_range hPos word)

/-- A number of operand width leaves the accumulator as it is. -/
theorem Config.Valid.outcome_of_fits {c : Config} (hValid : c.Valid) {v : Int}
    (hFits : Fits v c.precision.operandBits) (rule : Option Bool) :
    (c.precision.outcome v rule).result = ⟨v, false⟩ := by
  have hNarrow : Fits v (min c.precision.accBits 32) :=
    hFits.mono (Nat.le_min.mpr ⟨hValid.operandBits_le, (Units.fit_fresh hValid).operandBits.2⟩)
  have hValue : (c.precision.outcome v rule).result.value = v := by
    rw [Precision.value_outcome v rule hValid.accBits_pos]
    exact hNarrow.fitted_eq (Nat.lt_min.mpr ⟨hValid.accBits_pos, by decide⟩) _
  have hFlag : (c.precision.outcome v rule).result.saturated = false := by
    rw [← Bool.not_eq_true, Precision.saturated_outcome v rule hValid.accBits_pos]
    exact not_not.mpr hValue
  exact congrArg₂ UnitResult.mk hValue hFlag

/-- A pooling instruction with its operands, and the words that it is executed on. -/
structure PoolStep where
  word : Int
  ops : Operands
  words : List Int
  pools : (Instruction.decode word).kind = .pool

namespace PoolStep

variable (s : PoolStep)

def instruction : Instruction := .decode s.word

def mnemonic : Mnemonic := s.instruction.mnemonic

/-- Whether the step takes its window from the one before. -/
def slides : Bool := s.instruction.slides

def onUnit (p : Precision) (u : Pool) : Except Failure UnitResult × Pool :=
  u.execute p s.instruction s.ops s.words

def reads (u : Pool) : List Int := u.reads s.instruction s.ops

/-- A pooling instruction works in the mode that it names, or in the configured one. -/
theorem modeOf_eq {c : Config} {u : Pool} (hBuilt : u.Built c) :
    u.modeOf s.instruction = c.poolModeOf s.mnemonic := by
  have hVariant := Instruction.funct3_decode s.word (by rw [s.pools]; rfl)
  unfold Pool.modeOf Config.poolModeOf mnemonic instruction
  rw [hVariant, hBuilt.mode]
  rcases Mnemonic.of_kind_pool s.pools with hMnemonic | hMnemonic | hMnemonic <;> rw [hMnemonic] <;>
    rfl

end PoolStep

/-- The unit after some steps. -/
def Pool.after (p : Precision) (u : Pool) (steps : List PoolStep) : Pool :=
  steps.foldl (fun u s => (s.onUnit p u).2) u

theorem Pool.after_append (u : Pool) (p : Precision) (first second : List PoolStep) :
    u.after p (first ++ second) = (u.after p first).after p second := List.foldl_append

theorem Pool.after_concat (u : Pool) (p : Precision) (steps : List PoolStep) (s : PoolStep) :
    u.after p (steps ++ [s]) = (s.onUnit p (u.after p steps)).2 := u.after_append p steps [s]

section Steps

variable {c : Config} {p : Precision} {u : Pool}

/-- Every step, whether it succeeds or not, moves the unit on by one stride. -/
theorem PoolStep.onUnit_moves (s : PoolStep) (p : Precision) (u : Pool) :
    ∃ tally, (s.onUnit p u).2 =
      { u with
        nextBase := (u.origin s.instruction s.ops).1 + u.stride
        pitch := (u.origin s.instruction s.ops).2
        window := s.words.map p.operand, tally } := by
  unfold onUnit Pool.execute
  dsimp only
  split <;> exact ⟨_, rfl⟩

/-- A window that is given by registers is the anchor of those that slide behind it. -/
theorem PoolStep.next_of_anchor {s : PoolStep} (h : s.slides = false) :
    (s.onUnit p u).2.nextBase = s.ops.value .rs1 + u.stride ∧
      (s.onUnit p u).2.pitch = s.ops.value .rs2 := by
  obtain ⟨tally, hMoved⟩ := s.onUnit_moves p u
  have hOrigin : u.origin s.instruction s.ops = (s.ops.value .rs1, s.ops.value .rs2) :=
    if_neg (Bool.not_eq_true _ ▸ h)
  rw [hMoved, hOrigin]
  exact ⟨rfl, rfl⟩

/-- A window that slides keeps the pitch. -/
theorem PoolStep.next_of_slide {s : PoolStep} (h : s.slides = true) :
    (s.onUnit p u).2.nextBase = u.nextBase + u.stride ∧ (s.onUnit p u).2.pitch = u.pitch := by
  obtain ⟨tally, hMoved⟩ := s.onUnit_moves p u
  have hOrigin : u.origin s.instruction s.ops = (u.nextBase, u.pitch) := if_pos h
  rw [hMoved, hOrigin]
  exact ⟨rfl, rfl⟩

/-- No step changes the size, stride, mode or rounding. -/
theorem Pool.Built.onUnit (h : u.Built c) (s : PoolStep) : (s.onUnit p u).2.Built c := by
  obtain ⟨tally, hMoved⟩ := s.onUnit_moves p u
  rw [hMoved]
  exact ⟨h.size, h.stride, h.mode, h.rounding⟩

theorem Pool.Built.after (h : u.Built c) (steps : List PoolStep) : (u.after p steps).Built c := by
  induction steps generalizing u with
  | nil => exact h
  | cons s steps ih => exact ih (h.onUnit s)

/-- A window that comes from registers is left by one stride, and by one more for every step that
slides. The induction takes the steps off at the end. -/
theorem Pool.Built.next (h : u.Built c) {anchor : PoolStep} {slides : List PoolStep}
    (hAnchor : anchor.slides = false) (hSlides : ∀ s ∈ slides, s.slides = true) :
    (u.after p (anchor :: slides)).nextBase =
        anchor.ops.value .rs1 + (slides.length + 1) * c.poolStride ∧
      (u.after p (anchor :: slides)).pitch = anchor.ops.value .rs2 := by
  induction slides using List.reverseRecOn with
  | nil =>
      obtain ⟨hNext, hPitch⟩ := PoolStep.next_of_anchor (p := p) (u := u) hAnchor
      refine ⟨?_, hPitch⟩
      rw [h.stride] at hNext
      exact hNext.trans (by simp)
  | append_singleton slides s ih =>
      obtain ⟨hBefore, hKept⟩ := ih fun t hMem => hSlides t (List.mem_append_left _ hMem)
      have hSlide := hSlides s (List.mem_append_right _ (List.mem_singleton_self s))
      have hStride := (h.after (p := p) (anchor :: slides)).stride
      obtain ⟨hNext, hPitch⟩ := PoolStep.next_of_slide (p := p)
        (u := u.after p (anchor :: slides)) hSlide
      rw [← List.cons_append, Pool.after_concat, hNext, hPitch, hBefore, hStride,
        List.length_append, List.length_singleton]
      refine ⟨?_, hKept⟩
      push_cast
      ring

/-- What a step reads if it slides, place by place. -/
theorem PoolStep.reads_of_slide {s : PoolStep} (h : s.slides = true) {i j : Nat}
    (hRow : i < u.size) (hColumn : j < u.size) :
    (s.reads u)[i * u.size + j]? = some (u.nextBase + i * u.pitch + j) := by
  have hOrigin : u.origin s.instruction s.ops = (u.nextBase, u.pitch) := if_pos h
  have hPlace : i * u.size + j < u.size * u.size := by
    have hRows : (i + 1) * u.size ≤ u.size * u.size := Nat.mul_le_mul_right _ hRow
    rw [Nat.succ_mul] at hRows
    omega
  obtain ⟨hQuotient, hRemainder⟩ := place_div_mod hColumn i
  unfold reads Pool.reads
  rw [hOrigin]
  dsimp only
  rw [squareAddrs_eq, List.getElem?_map, List.getElem?_range hPlace, Option.map_some, hQuotient,
    hRemainder]

/-- Both modes reduce the words of a full window to a number between the least and the greatest of
them. -/
theorem Pool.Built.reduce_within (h : u.Built c) (hValid : c.Valid) {window : List Int}
    (hLength : window.length = c.poolWindow * c.poolWindow) :
    ∃ least greatest,
      IsLeast {v | v ∈ window} least ∧ IsGreatest {v | v ∈ window} greatest ∧
      ∀ mode, ∃ v, u.reduce mode window = .ok v ∧ least ≤ v ∧ v ≤ greatest ∧
        (mode = .max → v = greatest) ∧
        (mode = .avg →
          v = c.poolRounding.of (window.sum / (c.poolWindow * c.poolWindow : Nat))) := by
  have hPos : 0 < window.length := by
    rw [hLength]
    exact Nat.mul_pos hValid.poolWindow.1 hValid.poolWindow.1
  have hSome : window ≠ [] := List.ne_nil_of_length_pos hPos
  obtain ⟨least, hLeast⟩ := Option.ne_none_iff_exists'.mp (mt List.min?_eq_none_iff.mp hSome)
  obtain ⟨greatest, hGreatest⟩ := Option.ne_none_iff_exists'.mp (mt List.max?_eq_none_iff.mp hSome)
  obtain ⟨hLeastMem, hLow⟩ := List.min?_eq_some_iff.mp hLeast
  obtain ⟨hGreatestMem, hHigh⟩ := List.max?_eq_some_iff.mp hGreatest
  refine ⟨least, greatest, ⟨hLeastMem, hLow⟩, ⟨hGreatestMem, hHigh⟩, fun mode => ?_⟩
  cases mode with
  | max =>
      have hReduce := u.reduce_max hSome
      rw [hGreatest] at hReduce
      exact ⟨greatest, hReduce, hLow _ hGreatestMem, le_refl _, fun _ => rfl, nofun⟩
  | avg =>
      obtain ⟨hMeanLow, hMeanHigh⟩ := mean_within hPos fun v hV => ⟨hLow v hV, hHigh v hV⟩
      obtain ⟨hRoundLow, hRoundHigh⟩ := c.poolRounding.of_within hMeanLow hMeanHigh
      have hReduce := u.reduce_avg hSome
      rw [h.rounding, average_eq _ hPos] at hReduce
      exact ⟨_, hReduce, hRoundLow, hRoundHigh, nofun, fun _ => by rw [← hLength]; rfl⟩

end Steps

/-- A unit of a valid configuration that has executed any steps answers every step on a full window
without saturating, with a number between the least and the greatest word of operand width: with the
greatest one, or with the mean, rounded as configured. After a window that comes from registers,
each step that slides reads the window that lies one stride behind the one before, row by row. -/
theorem Pool.stays_within {c : Config} (hValid : c.Valid) (before : List PoolStep) :
    let p := c.precision
    let unit := (Units.fresh c).pool
    (∀ words : List Int, words.length = c.poolWindow * c.poolWindow →
      ∃ least greatest,
        IsLeast {v | v ∈ words.map p.operand} least ∧
        IsGreatest {v | v ∈ words.map p.operand} greatest ∧
        ∀ s : PoolStep, s.words = words →
          ∃ v, (s.onUnit p (unit.after p before)).1 = .ok ⟨v, false⟩ ∧
          least ≤ v ∧ v ≤ greatest ∧
          (c.poolModeOf s.mnemonic = .max → v = greatest) ∧
          (c.poolModeOf s.mnemonic = .avg →
            v = c.poolRounding.of
              ((words.map p.operand).sum / (c.poolWindow * c.poolWindow : Nat)))) ∧
    ∀ (anchor : PoolStep) (slides : List PoolStep) (s : PoolStep), anchor.slides = false →
      (∀ t ∈ slides, t.slides = true) → s.slides = true →
      let reads := s.reads (unit.after p (before ++ anchor :: slides))
      reads.length = c.poolWindow * c.poolWindow ∧
      ∀ i < c.poolWindow, ∀ j < c.poolWindow,
        reads[i * c.poolWindow + j]? =
          some (anchor.ops.value .rs1 + (slides.length + 1) * c.poolStride +
            i * anchor.ops.value .rs2 + j) := by
  intro p unit
  have hFresh : unit.Built c := ⟨rfl, rfl, rfl, rfl⟩
  have hBefore : (unit.after p before).Built c := hFresh.after before
  have hPos : 0 < p.operandBits := (Units.fit_fresh hValid).operandBits.1
  refine ⟨fun words hWords => ?_, fun anchor slides s hAnchor hSlides hSlide => ?_⟩
  · obtain ⟨least, greatest, hLeast, hGreatest, hModes⟩ :=
      hBefore.reduce_within hValid ((List.length_map _).trans hWords)
    refine ⟨least, greatest, hLeast, hGreatest, fun s hIs => ?_⟩
    obtain ⟨v, hReduce, hLow, hHigh, hMax, hAvg⟩ := hModes (c.poolModeOf s.mnemonic)
    have hFits : Fits v p.operandBits :=
      (Precision.fits_operand hPos hLeast.1).between (Precision.fits_operand hPos hGreatest.1)
        hLow hHigh
    have hAnswer : (s.onUnit p (unit.after p before)).1 = .ok (p.outcome v none).result := by
      rw [← s.modeOf_eq hBefore, ← hIs] at hReduce
      exact congrArg Prod.fst (Pool.execute_eq rfl hReduce)
    rw [hValid.outcome_of_fits hFits] at hAnswer
    exact ⟨v, hAnswer, hLow, hHigh, hMax, hAvg⟩
  · have hBuilt := hFresh.after (p := p) (before ++ anchor :: slides)
    obtain ⟨hNext, hPitch⟩ := hBefore.next (p := p) hAnchor hSlides
    rw [← Pool.after_append] at hNext hPitch
    intro reads
    have hLength : reads.length = c.poolWindow * c.poolWindow := by
      rw [← hBuilt.size]
      exact squareAddrs_length _ _ _
    refine ⟨hLength, fun i hRow j hColumn => ?_⟩
    have hPlace := PoolStep.reads_of_slide (u := unit.after p (before ++ anchor :: slides)) hSlide
      (by rw [hBuilt.size]; exact hRow) (by rw [hBuilt.size]; exact hColumn)
    rw [hNext, hPitch, hBuilt.size] at hPlace
    exact hPlace

/-- The mean of -3, -2, -3 and -2 lies half-way and goes up to -2. The second step that slides away
from the address 200 starts at 204; its last word lies a row of 8 words and one word further on. -/
theorem Pool.stays_within_of_second_slide :
    let c : Config := { poolMode := .avg, poolRounding := .nearest }
    let anchor (words : List Int) : PoolStep :=
      ⟨0x000f, { rs1 := some 200, rs2 := some 8 }, words, by decide +kernel⟩
    let slide : PoolStep := ⟨0x200000f, {}, [], by decide +kernel⟩
    let u := (Units.fresh c).pool
    c.Valid ∧
      ((anchor [-3, -2, -3, -2]).onUnit c.precision (u.after c.precision [])).1 =
        .ok ⟨-2, false⟩ ∧
      (anchor []).slides = false ∧ slide.slides = true ∧
      (slide.reads (u.after c.precision [anchor [], slide]))[3]? = some 213 := by
  intro c anchor slide u
  have hValid : c.Valid := by constructor <;> decide
  have hAnchor : (anchor []).slides = false := by decide +kernel
  have hSlide : slide.slides = true := by decide +kernel
  obtain ⟨hFull, hWalk⟩ := Pool.stays_within hValid []
  obtain ⟨_, _, -, -, hAll⟩ := hFull [-3, -2, -3, -2] rfl
  obtain ⟨v, hAnswer, -, -, -, hMean⟩ := hAll (anchor [-3, -2, -3, -2]) rfl
  have hHalf : v = -2 := by
    have hSum : ([-3, -2, -3, -2].map c.precision.operand).sum = -10 := by decide +kernel
    rw [hMean (by decide +kernel), hSum]
    unfold Rounding.of
    norm_num [c]
  obtain ⟨-, hPlace⟩ := hWalk (anchor []) [slide] slide hAnchor (by simp [hSlide]) hSlide
  exact ⟨hValid, by rw [hAnswer, hHalf], hAnchor, hSlide, hPlace 1 (by decide) 1 (by decide)⟩

end AccelPipe

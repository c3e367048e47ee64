import AccelPipe.Proofs.Accelerator.Saturation
import AccelPipe.Proofs.Reference.Accelerators

/-! A chain of multiply-accumulate instructions computes a dot product. Wrapping around on the way
is lost in the last sum. Clamping on the way is not: a clamped chain is exact only as long as every
sum on the way fits, but it stays in range and moves with the sign of each product. -/
namespace AccelPipe

variable {p : Precision}

/-! Clamping keeps the order of numbers. -/

theorem fitted_mono {a b : Int} (h : a ≤ b) (bits : Nat) :
    fitted a bits true ≤ fitted b bits true := by
  simp only [fitted, if_true]
  omega

namespace Precision

/-- The accumulator after products have been added one by one. -/
def accumulated (p : Precision) (products : List Int) : Int :=
  products.foldl (fun acc product => (p.accumulate (acc + product) none).1) 0

theorem accumulated_concat (p : Precision) (products : List Int) (product : Int) :
    p.accumulated (products ++ [product]) =
      fitted (p.accumulated products + product) p.accBits p.saturate := by
  unfold accumulated
  rw [List.foldl_append, List.foldl_cons, List.foldl_nil]
  exact fit_value _ _ _

theorem fits_accumulated (hPos : 0 < p.accBits) (products : List Int) :
    Fits (p.accumulated products) p.accBits := by
  induction products using List.reverseRecOn with
  | nil => exact fits_zero _
  | append_singleton products product =>
      rw [accumulated_concat]
      exact fits_fitted hPos _ _

/-- Wrapping around at each sum is wrapping around once. -/
theorem accumulated_of_wrap (hRule : p.saturate = false) (products : List Int) :
    p.accumulated products = products.sum.bmod (2 ^ p.accBits) := by
  induction products using List.reverseRecOn with
  | nil => exact Int.zero_bmod.symm
  | append_singleton products product ih =>
      rw [accumulated_concat, hRule, ih, List.sum_append, List.sum_singleton]
      exact Int.bmod_add_bmod

/-- As long as every sum fits, nothing changes. -/
theorem accumulated_of_fits (hPos : 0 < p.accBits) {products : List Int}
    (h : ∀ start, start <+: products → Fits start.sum p.accBits) :
    p.accumulated products = products.sum := by
  induction products using List.reverseRecOn with
  | nil => rfl
  | append_singleton products product ih =>
      have hBefore := ih fun start hStart => h start (hStart.trans (List.prefix_append _ _))
      have hAll := h _ (List.prefix_refl _)
      rw [List.sum_append, List.sum_singleton] at hAll ⊢
      rw [accumulated_concat, hBefore]
      exact hAll.fitted_eq hPos _

/-- Under the clamping rule an accumulator goes in the direction of the product. -/
theorem accumulated_directed (hPos : 0 < p.accBits) (hRule : p.saturate = true)
    (products : List Int) (product : Int) :
    (0 ≤ product → p.accumulated products ≤ p.accumulated (products ++ [product])) ∧
      (product ≤ 0 → p.accumulated (products ++ [product]) ≤ p.accumulated products) := by
  have hStays := (fits_accumulated hPos products).fitted_eq hPos true
  rw [accumulated_concat, hRule]
  refine ⟨fun hUp => ?_, fun hDown => ?_⟩
  · conv_lhs => rw [← hStays]
    exact fitted_mono (by omega) _
  · conv_rhs => rw [← hStays]
    exact fitted_mono (by omega) _

end Precision

/-- A multiply-accumulate instruction with its operands. -/
structure MacStep where
  word : Int
  ops : Operands

namespace MacStep

def instruction (s : MacStep) : Instruction := .decode s.word

def product (p : Precision) (s : MacStep) : Int := Mac.product p s.ops

end MacStep

/-- The result of the last of several operations, and the unit after it. -/
def Mac.chain (u : Mac) (p : Precision) (first : MacStep) (rest : List MacStep) :
    Except Failure UnitResult × Mac :=
  rest.foldl (fun done s => done.2.execute p s.instruction s.ops)
    (u.execute p first.instruction first.ops)

/-- The same operations on the reference machine. -/
def Reference.chain (r : Reference) (first : MacStep) (rest : List MacStep) : Int × Reference :=
  let multiply (r : Reference) (s : MacStep) : Int × Reference :=
    r.multiply s.instruction (s.ops.value .rs1) (s.ops.value .rs2)
  rest.foldl (fun done s => multiply done.2 s) (multiply r first)

/-- A unit whose accumulator is that of some products, after an operation that has returned it. -/
structure Mac.Summed (p : Precision) (products : List Int)
    (done : Except Failure UnitResult × Mac) : Prop where
  result : ∃ r, done.1 = .ok r ∧ r.value = (p.result (p.accumulated products) none).1
  acc : done.2.acc = p.accumulated products

/-- The reference machine after the same. -/
structure Reference.Summed (p : Precision) (products : List Int) (done : Int × Reference) :
    Prop where
  precision : done.2.precision = p
  value : done.1 = (p.result (p.accumulated products) none).1
  acc : done.2.macAcc = p.accumulated products

theorem Precision.accumulated_singleton (p : Precision) (product : Int) :
    p.accumulated [product] = (p.accumulate product none).1 := by
  unfold accumulated
  rw [List.foldl_cons, List.foldl_nil, Int.zero_add]

section Steps

variable {s : MacStep} {products : List Int}

/-- The variant of an instruction is the one that its name says. -/
theorem MacStep.funct3 (hKind : s.instruction.kind.accelerated = true) :
    s.instruction.funct3 = s.instruction.mnemonic.variant :=
  Instruction.funct3_decode s.word hKind

theorem Mac.summed_of_macz (u : Mac) (hMnemonic : s.instruction.mnemonic = .macz) :
    Mac.Summed p [s.product p] (u.execute p s.instruction s.ops) := by
  have hVariant := s.funct3 (by unfold Instruction.kind; rw [hMnemonic]; rfl)
  unfold Mac.execute Mac.variant?
  rw [hVariant, hMnemonic]
  refine ⟨⟨_, rfl, ?_⟩, ?_⟩ <;> rw [Precision.accumulated_singleton] <;> rfl

theorem Mac.Summed.maca {done : Except Failure UnitResult × Mac}
    (h : Mac.Summed p products done) (hMnemonic : s.instruction.mnemonic = .maca) :
    Mac.Summed p (products ++ [s.product p]) (done.2.execute p s.instruction s.ops) := by
  have hVariant := s.funct3 (by unfold Instruction.kind; rw [hMnemonic]; rfl)
  have hSum : (p.accumulate (done.2.acc + s.product p) none).1 =
      p.accumulated (products ++ [s.product p]) := by
    rw [p.accumulated_concat, h.acc]
    exact fit_value _ _ _
  unfold Mac.execute Mac.variant?
  rw [hVariant, hMnemonic]
  refine ⟨⟨_, rfl, ?_⟩, ?_⟩ <;> rw [← hSum] <;> rfl

theorem Reference.summed_of_macz {r : Reference} (hPrecision : r.precision = p)
    (hMnemonic : s.instruction.mnemonic = .macz) :
    Reference.Summed p [s.product p]
      (r.multiply s.instruction (s.ops.value .rs1) (s.ops.value .rs2)) := by
  subst hPrecision
  unfold Reference.multiply
  rw [hMnemonic]
  refine ⟨rfl, ?_, ?_⟩ <;> rw [Precision.accumulated_singleton] <;> rfl

theorem Reference.Summed.maca {done : Int × Reference} (h : Reference.Summed p products done)
    (hMnemonic : s.instruction.mnemonic = .maca) :
    Reference.Summed p (products ++ [s.product p])
      (done.2.multiply s.instruction (s.ops.value .rs1) (s.ops.value .rs2)) := by
  obtain ⟨rfl, -, hAcc⟩ := h
  have hSum : (done.2.precision.accumulate (done.2.macAcc + s.product done.2.precision) none).1 =
      done.2.precision.accumulated (products ++ [s.product done.2.precision]) := by
    rw [Precision.accumulated_concat, hAcc]
    exact fit_value _ _ _
  unfold Reference.multiply
  rw [hMnemonic]
  refine ⟨rfl, ?_, ?_⟩ <;> rw [← hSum] <;> rfl

end Steps

section Chains

variable {first : MacStep} {rest : List MacStep}

/-- What holds after the first product, and after one more product whenever it has held before,
holds after all of them. -/
theorem MacStep.foldl_holds {σ : Type} {step : σ → MacStep → σ} {start : σ}
    {Holds : List Int → σ → Prop} (hStart : Holds [first.product p] start)
    (hStep : ∀ {products done s}, Holds products done → s.instruction.mnemonic = .maca →
      Holds (products ++ [s.product p]) (step done s))
    (hRest : ∀ s ∈ rest, s.instruction.mnemonic = .maca) :
    Holds ((first :: rest).map (·.product p)) (rest.foldl step start) := by
  induction rest using List.reverseRecOn with
  | nil => exact hStart
  | append_singleton rest s ih =>
      have hBefore := ih fun t hMem => hRest t (List.mem_append_left _ hMem)
      have hLast := hRest s (List.mem_append_right _ (List.mem_singleton_self s))
      rw [← List.cons_append, List.map_append, List.foldl_append]
      exact hStep hBefore hLast

variable (hFirst : first.instruction.mnemonic = .macz)
include hFirst

theorem Mac.chain_summed (u : Mac) (hRest : ∀ s ∈ rest, s.instruction.mnemonic = .maca) :
    Mac.Summed p ((first :: rest).map (·.product p)) (u.chain p first rest) :=
  MacStep.foldl_holds (u.summed_of_macz hFirst) (fun h => h.maca) hRest

theorem Reference.chain_summed {r : Reference} (hPrecision : r.precision = p)
    (hRest : ∀ s ∈ rest, s.instruction.mnemonic = .maca) :
    Reference.Summed p ((first :: rest).map (·.product p)) (r.chain first rest) :=
  MacStep.foldl_holds (summed_of_macz hPrecision hFirst) (fun h => h.maca) hRest

end Chains

/-- A chain of multiply-accumulate instructions, started from any state of the unit, leaves the sum
of its products. Under the wrapping rule the sum wraps around as if it had never done so before.
Under the clamping rule the sum is exact if all sums on the way fit; whether they do or not, every
product moves the accumulator in its own direction or leaves it where it is. The accumulator stays
in range, and the reference machine has the same accumulator and the same value. -/
theorem Mac.chain_dot {c : Config} (hValid : c.Valid) (u : Mac) {first : MacStep}
    {rest : List MacStep} (hFirst : first.instruction.mnemonic = .macz)
    (hRest : ∀ s ∈ rest, s.instruction.mnemonic = .maca) :
    let p := c.precision
    let products := (first :: rest).map (·.product p)
    let accAfter (rest : List MacStep) : Int := (u.chain p first rest).2.acc
    ∃ result, (u.chain p first rest).1 = .ok result ∧
      (p.saturate = false →
        accAfter rest = products.sum.bmod (2 ^ p.accBits) ∧
        result.value = products.sum.bmod (2 ^ min p.accBits 32)) ∧
      (p.saturate = true →
        ((∀ start, start <+: products →
            p.accRange.1 ≤ start.sum ∧ start.sum ≤ p.accRange.2) →
          accAfter rest = products.sum ∧ result.value = fitted products.sum 32 true) ∧
        ((0 ≤ first.product p → 0 ≤ accAfter []) ∧ (first.product p ≤ 0 → accAfter [] ≤ 0)) ∧
        ∀ before s, before ++ [s] <+: rest →
          (0 ≤ s.product p → accAfter before ≤ accAfter (before ++ [s])) ∧
          (s.product p ≤ 0 → accAfter (before ++ [s]) ≤ accAfter before)) ∧
      (p.accRange.1 ≤ accAfter rest ∧ accAfter rest ≤ p.accRange.2) ∧
      ∀ r : Reference, r.precision = p →
        (r.chain first rest).1 = result.value ∧ (r.chain first rest).2.macAcc = accAfter rest := by
  intro p products accAfter
  have hPos : 0 < p.accBits := hValid.accBits_pos
  obtain ⟨⟨result, hResult, hValue⟩, hAcc⟩ : Mac.Summed p products (u.chain p first rest) :=
    u.chain_summed hFirst hRest
  have hNarrowed : result.value = fitted (p.accumulated products) 32 p.saturate :=
    hValue.trans (fit_value _ _ _)
  have hAfter {done : List MacStep} (hDone : done <+: rest) :
      accAfter done = p.accumulated ((first :: done).map (·.product p)) :=
    (u.chain_summed hFirst fun s hMem => hRest s (hDone.subset hMem)).acc
  refine ⟨result, hResult, fun hWrap => ?_, fun hClamp => ⟨fun hFits => ?_, ?_, ?_⟩, ?_, ?_⟩
  · have hSum := p.accumulated_of_wrap hWrap products
    refine ⟨hAcc.trans hSum, ?_⟩
    rw [hNarrowed, hSum, hWrap]
    exact fitted_fitted hPos (by decide) products.sum false
  · have hSum := Precision.accumulated_of_fits hPos fun start hStart =>
      fits_iff_signedRange.mpr (hFits start hStart)
    refine ⟨hAcc.trans hSum, ?_⟩
    rw [hNarrowed, hSum, hClamp]
  · rw [hAfter List.nil_prefix]
    exact Precision.accumulated_directed hPos hClamp [] _
  · intro before s hPrefix
    rw [hAfter ((List.prefix_append _ _).trans hPrefix), hAfter hPrefix, ← List.cons_append,
      List.map_append]
    exact Precision.accumulated_directed hPos hClamp _ _
  · have hRange := Precision.fits_accumulated hPos products
    rw [← hAcc] at hRange
    exact fits_iff_signedRange.mp hRange
  · intro r hPrecision
    have hReference := r.chain_summed hFirst hPrecision hRest
    exact ⟨hReference.value.trans hValue.symm, hReference.acc.trans hAcc.symm⟩

/-- At eight bits the products 200 and -100 have the sum 100 under the wrapping rule, though the
first of them does not fit; under the clamping rule 100, 27 and -127 have the sum 0. -/
theorem Mac.chain_dot_of_eight_bits :
    let restart (a b : Int) : MacStep := ⟨0x300c, { rs1 := some a, rs2 := some b }⟩
    let add (a b : Int) : MacStep := ⟨0x200c, { rs1 := some a, rs2 := some b }⟩
    let wrapping : Config := { operandType := .int8, overflow := .wrap }
    let clamping : Config := { operandType := .int8 }
    let wrapped := (Mac.mk 7 {}).chain wrapping.precision (restart 100 2) [add 50 (-2)]
    let clamped := (Mac.mk 7 {}).chain clamping.precision (restart 100 1) [add 27 1, add (-1) 127]
    (wrapping.Valid ∧ clamping.Valid) ∧
      ((restart 100 2).instruction.mnemonic = .macz ∧
        (restart 100 1).instruction.mnemonic = .macz) ∧
      ((∀ s ∈ [add 50 (-2)], s.instruction.mnemonic = .maca) ∧
        ∀ s ∈ [add 27 1, add (-1) 127], s.instruction.mnemonic = .maca) ∧
      (∃ result, wrapped.1 = .ok result ∧ wrapped.2.acc = 100 ∧ result.value = 100) ∧
      ∃ result, clamped.1 = .ok result ∧ clamped.2.acc = 0 ∧ result.value = 0 := by
  intro restart add wrapping clamping wrapped clamped
  have hWrapping : wrapping.Valid := by constructor <;> decide
  have hClamping : clamping.Valid := by constructor <;> decide
  have hFirst : (restart 100 2).instruction.mnemonic = .macz := by decide +kernel
  have hStart : (restart 100 1).instruction.mnemonic = .macz := by decide +kernel
  have hRest : ∀ s ∈ [add 50 (-2)], s.instruction.mnemonic = .maca := by decide +kernel
  have hMore : ∀ s ∈ [add 27 1, add (-1) 127], s.instruction.mnemonic = .maca := by decide +kernel
  obtain ⟨wrapResult, hWrapResult, hWrap, -⟩ := Mac.chain_dot hWrapping (Mac.mk 7 {}) hFirst hRest
  obtain ⟨hWrapAcc, hWrapValue⟩ := hWrap rfl
  obtain ⟨clampResult, hClampResult, -, hClamp, -⟩ :=
    Mac.chain_dot hClamping (Mac.mk 7 {}) hStart hMore
  have hFits : ∀ start ∈ [100, 27, (-127 : Int)].inits, -128 ≤ start.sum ∧ start.sum ≤ 127 := by
    decide
  have hProducts : [restart 100 1, add 27 1, add (-1) 127].map (·.product clamping.precision) =
      [100, 27, -127] := by decide +kernel
  obtain ⟨hClampAcc, hClampValue⟩ := (hClamp rfl).1 fun start hStart =>
    hFits start ((List.mem_inits _ _).mpr (hProducts ▸ hStart))
  exact ⟨⟨hWrapping, hClamping⟩, ⟨hFirst, hStart⟩, ⟨hRest, hMore⟩,
    ⟨wrapResult, hWrapResult, hWrapAcc.trans (by decide +kernel),
      hWrapValue.trans (by decide +kernel)⟩,
    clampResult, hClampResult, hClampAcc.trans (by decide +kernel),
      hClampValue.trans (by decide +kernel)⟩

end AccelPipe

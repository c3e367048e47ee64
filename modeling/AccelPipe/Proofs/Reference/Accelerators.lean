import AccelPipe.Proofs.Reference.Window
import AccelPipe.Proofs.Machine.Step

/-! The accelerator state of the reference machine, and that of the units. Every operation does the
same to both. -/
namespace AccelPipe

/-- The words that the convolution unit keeps are those in memory. -/
def Conv2d.Keeps (u : Conv2d) (memory : Int → Int) : Prop :=
  ∀ o, u.origin = some o → u.window = (squareAddrs u.size o.base o.pitch).map memory

/-- Whether it reads a square or completes one, the convolution unit works on the square that it has
been given. -/
theorem Conv2d.execute_square {u : Conv2d} {memory : Int → Int} (hSize : 0 < u.size)
    (hKeeps : u.Keeps memory) (p : Precision) {ins : Instruction} (hLoads : loads ins = false)
    (ops : Operands) :
    ∃ hits, u.execute p ins ops ((u.reads ins ops).map memory) =
      (.ok (u.convolve p (originOf ops)
          ((squareAddrs u.size (originOf ops).base (originOf ops).pitch).map memory) hits).1,
        (u.convolve p (originOf ops)
          ((squareAddrs u.size (originOf ops).base (originOf ops).pitch).map memory) hits).2) := by
  unfold execute reads
  rw [hLoads]
  simp only [Bool.false_eq_true, if_false]
  generalize originOf ops = o
  by_cases hSlides : u.slides o = true
  · obtain ⟨kept, hOrigin, rfl⟩ : ∃ kept, u.origin = some kept ∧
        o = { kept with base := kept.base + 1 } := by
      unfold slides at hSlides
      cases hOrigin : u.origin with
      | none =>
          rw [hOrigin] at hSlides
          cases hSlides
      | some kept =>
          rw [hOrigin] at hSlides
          exact ⟨kept, rfl, beq_iff_eq.mp hSlides⟩
    refine ⟨1, ?_⟩
    rw [if_pos hSlides, if_pos hSlides, if_neg (by simp), ← u.shifted_eq hSize (hKeeps kept hOrigin)]
    rfl
  · refine ⟨0, ?_⟩
    rw [if_neg hSlides, if_neg hSlides]

theorem Pool.reduce_max (u : Pool) {words : List Int} (h : words ≠ []) :
    u.reduce .max words = .ok (words.max?.getD 0) := by
  cases words with
  | nil => exact absurd rfl h
  | cons w ws => rfl

theorem Pool.reduce_avg (u : Pool) {words : List Int} (h : words ≠ []) :
    u.reduce .avg words =
      .ok (average (total words) words.length (u.rounding == .nearest)) := by
  cases words with
  | nil => exact absurd rfl h
  | cons w ws => rfl

theorem Pool.execute_eq {u : Pool} {p : Precision} {ins : Instruction} {ops : Operands}
    {base pitch : Int} (hOrigin : u.origin ins ops = (base, pitch)) {words : List Int} {sum : Int}
    (hSum : u.reduce (u.modeOf ins) (words.map p.operand) = .ok sum) :
    u.execute p ins ops words =
      (.ok (p.outcome sum none).result,
        { u with
          nextBase := base + u.stride, pitch, window := words.map p.operand
          tally := (p.outcome sum none).counted u.tally }) := by
  have hReduce : Pool.reduce
      { u with nextBase := base + u.stride, pitch, window := words.map p.operand }
      (Pool.modeOf { u with nextBase := base + u.stride, pitch, window := words.map p.operand } ins)
      (words.map p.operand) = .ok sum := hSum
  unfold execute
  rw [hOrigin]
  dsimp only
  rw [hReduce]

namespace Reference

/-- The reference machine has the state of the units. -/
structure Mirrors (r : Reference) (u : Units) : Prop where
  precision : r.precision = u.precision
  kernelSize : r.kernelSize = u.conv2d.size
  kernel : r.kernel = u.conv2d.kernel
  coefficients : r.coefficients = u.fir.coefficients
  samples : r.samples = u.fir.samples
  taps : u.fir.samples.length = u.fir.taps
  someTap : 0 < u.fir.taps
  macAcc : r.macAcc = u.mac.acc
  poolSize : r.poolSize = u.pool.size
  poolWithin : u.pool.size ≤ 8
  poolStride : r.poolStride = u.pool.stride
  poolMode : r.poolMode = u.pool.mode
  poolRounding : r.poolRounding = u.pool.rounding
  poolNext : r.poolNext = u.pool.nextBase
  poolPitch : r.poolPitch = u.pool.pitch

/-- Whether the window of an instruction has the addresses that it stands for. Those that get
their window from registers always have. -/
def ExactWindow (r : Reference) (ins : Instruction) : Prop :=
  ins.kind = .pool → ins.slides = true →
    fits64 r.poolNext = true ∧ r.ExactSquare r.poolSize r.poolNext r.poolPitch

/-- An operation of the reference machine, its value and the machine after it, is that of a unit. -/
structure Matches (mine : Int × Reference) (result : Except Failure UnitResult × Units) : Prop where
  value : ∃ saturated, result.1 = .ok ⟨mine.1, saturated⟩
  mirrors : mine.2.Mirrors result.2

variable {r : Reference} {u : Units} {ins : Instruction} {ops : Operands} {a b : Int}

/-- A sum leaves the accumulator in one way. -/
theorem narrow_eq (h : r.precision = u.precision) (total : Int) (rule : Option Bool) :
    r.narrow total rule =
      ((u.precision.outcome total rule).acc, (u.precision.outcome total rule).result.value) := by
  unfold narrow
  rw [h]
  rfl

theorem multiply_matches (h : r.Mirrors u) (hKind : ins.kind = .mac)
    (hVariant : ins.funct3 = ins.mnemonic.variant)
    (hFirst : (Operand.rs1, ins.rs1) ∈ ins.sources → ops.value .rs1 = a)
    (hSecond : (Operand.rs2, ins.rs2) ∈ ins.sources → ops.value .rs2 = b)
    (hThird : (Operand.rd, ins.rd) ∈ ins.sources → ops.value .rd = r.registers.read ins.rd)
    (words : List Int) : Matches (r.multiply ins a b) (u.execute .mac ins ops words) := by
  have hSum : ∀ (total : Int) (rule : Option Bool) (tally : Tally),
      Matches ((r.narrow total rule).2, { r with macAcc := (r.narrow total rule).1 })
        (.ok (u.precision.outcome total rule).result,
          { u with mac := ⟨(u.precision.outcome total rule).acc, tally⟩ }) := by
    intro total rule tally
    rw [narrow_eq h.precision]
    exact ⟨⟨_, rfl⟩, { h with macAcc := rfl }⟩
  have hProduct : Mac.product u.precision ops =
      r.precision.operand a * r.precision.operand b := by
    obtain ⟨hReadsFirst, hReadsSecond⟩ := Instruction.mem_sources_of_mac hKind
    unfold Mac.product
    rw [hFirst hReadsFirst, hSecond hReadsSecond, h.precision]
  unfold Instruction.sources at hThird
  unfold Units.execute Mac.execute Mac.variant? multiply
  rw [hVariant]
  rcases Mnemonic.of_kind_mac hKind with hMnemonic | hMnemonic | hMnemonic | hMnemonic <;>
    simp only [hMnemonic] at hThird ⊢ <;>
    simp only [Mnemonic.variant, Mac.total, Mac.Variant.rule, hProduct, hThird, ← h.macAcc,
      List.mem_cons, true_or] <;>
    exact hSum _ _ _

/-- The rectifier has no state. -/
theorem rectify_matches (h : r.Mirrors u) (hKind : ins.kind = .relu)
    (hVariant : ins.funct3 = ins.mnemonic.variant)
    (hFirst : (Operand.rs1, ins.rs1) ∈ ins.sources → ops.value .rs1 = a) (words : List Int) :
    Matches (r.rectify ins a, r) (u.execute .relu ins ops words) := by
  have hValue : Relu.value u.precision ins ops = r.rectify ins a := by
    rw [Instruction.sources_of_relu hKind] at hFirst
    unfold Relu.value Relu.bounded rectify
    rw [hVariant, h.precision, hFirst (List.mem_singleton_self _)]
    rcases Mnemonic.of_kind_relu hKind with hMnemonic | hMnemonic <;> rw [hMnemonic] <;> rfl
  refine ⟨⟨false, ?_⟩, { h with }⟩
  rw [← hValue]
  rfl

theorem filter_matches (h : r.Mirrors u) (hKind : ins.kind = .fir)
    (hVariant : ins.funct3 = ins.mnemonic.variant)
    (hFirst : (Operand.rs1, ins.rs1) ∈ ins.sources → ops.value .rs1 = a) :
    Matches (r.filter ins a) (u.execute .fir ins ops ((u.reads .fir ins ops).map r.peek)) := by
  have hTaps : r.samples.length = u.fir.taps := by rw [h.samples, h.taps]
  unfold Instruction.sources at hFirst
  unfold Units.execute Units.reads Fir.execute Fir.reads Fir.loads Fir.clears filter
  rw [hVariant]
  dsimp only
  rw [hTaps]
  rcases Mnemonic.of_kind_fir hKind with hMnemonic | hMnemonic | hMnemonic <;>
    rw [hMnemonic] at hFirst ⊢
  · -- a sample is shifted in and filtered
    have hShifted : (r.precision.operand a :: r.samples).take u.fir.taps =
        u.fir.shifted (u.precision.operand (ops.value .rs1)) := by
      have hSome : 0 < u.fir.samples.length := h.taps ▸ h.someTap
      rw [hFirst (by simp), h.precision, h.samples, ← h.taps, u.fir.shifted_eq_take hSome]
    have hLength : (u.fir.shifted (u.precision.operand (ops.value .rs1))).length = u.fir.taps := by
      have hSome := h.someTap
      rw [← h.taps] at hSome ⊢
      unfold Fir.shifted
      rw [List.length_cons, List.length_dropLast]
      omega
    dsimp only [Mnemonic.variant]
    rw [hShifted, narrow_eq h.precision, h.coefficients]
    exact ⟨⟨_, rfl⟩, { h with coefficients := rfl, samples := rfl, taps := hLength }⟩
  · -- the coefficients are loaded
    refine ⟨⟨false, rfl⟩, { h with coefficients := ?_ }⟩
    change r.row u.fir.taps (a + ins.imm) = _
    rw [hFirst (by simp), row_eq, h.precision]
    rfl
  · -- the samples are cleared
    refine ⟨⟨false, rfl⟩, { h with samples := rfl, taps := ?_ }⟩
    exact List.length_replicate

theorem convolve_matches (h : r.Mirrors u) (hFit : u.Fit) (hKind : ins.kind = .conv2d)
    (hVariant : ins.funct3 = ins.mnemonic.variant)
    (hFirst : (Operand.rs1, ins.rs1) ∈ ins.sources → ops.value .rs1 = a)
    (hSecond : (Operand.rs2, ins.rs2) ∈ ins.sources → ops.value .rs2 = b)
    (hA : IsWord a) (hB : IsWord b) (hKeeps : u.conv2d.Keeps r.peek) :
    Matches (r.convolve ins a b) (u.execute .conv2d ins ops ((u.reads .conv2d ins ops).map r.peek)) ∧
      (u.execute .conv2d ins ops ((u.reads .conv2d ins ops).map r.peek)).2.conv2d.Keeps r.peek := by
  unfold Instruction.sources at hFirst hSecond
  unfold Units.execute Units.reads convolve
  rcases Mnemonic.of_kind_conv2d hKind with hMnemonic | hMnemonic <;>
    rw [hMnemonic] at hFirst hSecond hVariant ⊢
  · have hLoads : Conv2d.loads ins = false := by
      unfold Conv2d.loads
      rw [hVariant]
      rfl
    have hOrigin : Conv2d.originOf ops = ⟨a, b⟩ := by
      unfold Conv2d.originOf
      rw [hFirst (by simp), hSecond (by simp)]
    obtain ⟨hits, hExecute⟩ := Conv2d.execute_square hFit.conv2d.1 hKeeps u.precision hLoads ops
    have hExact := r.exactSquare_of_words (Nat.le_trans hFit.conv2d.2 (by decide)) hA hB
    rw [hOrigin] at hExecute
    dsimp only
    rw [hExecute, if_neg nofun, h.kernelSize, square_eq r hExact, narrow_eq h.precision, h.kernel,
      h.precision]
    refine ⟨⟨⟨_, rfl⟩, { h with kernelSize := h.kernelSize, kernel := h.kernel }⟩, ?_⟩
    intro o hKept
    obtain rfl := Option.some.inj hKept
    rfl
  · have hLoads : Conv2d.loads ins = true := beq_iff_eq.mpr hVariant
    unfold Conv2d.execute Conv2d.reads
    rw [hLoads, hFirst (by simp)]
    simp only [if_true]
    refine ⟨⟨⟨false, ?_⟩, { h with kernel := ?_ }⟩, hKeeps⟩
    · rw [List.length_map, rowAddrs_length, h.kernelSize, Int.natCast_mul]
    · rw [row_eq, h.kernelSize, h.precision]

/-- Base and pitch of a pooling operation. -/
def poolPlace (r : Reference) (ins : Instruction) (a b : Int) : Int × Int :=
  if ins.slides then (r.poolNext, r.poolPitch) else (a, b)

theorem poolPlace_eq (h : r.Mirrors u) (hKind : ins.kind = .pool)
    (hFirst : (Operand.rs1, ins.rs1) ∈ ins.sources → ops.value .rs1 = a)
    (hSecond : (Operand.rs2, ins.rs2) ∈ ins.sources → ops.value .rs2 = b) :
    u.pool.origin ins ops = r.poolPlace ins a b := by
  unfold Pool.origin poolPlace
  split
  · rw [h.poolNext, h.poolPitch]
  · rename_i hSlides
    rw [Instruction.sources_of_pool hKind, if_neg hSlides] at hFirst hSecond
    rw [hFirst (by simp), hSecond (by simp)]

/-- The place of an exact window. -/
theorem exact_poolPlace (h : r.Mirrors u) (hKind : ins.kind = .pool) (hA : IsWord a)
    (hB : IsWord b) (hExact : r.ExactWindow ins) :
    fits64 (r.poolPlace ins a b).1 = true ∧
      r.ExactSquare r.poolSize (r.poolPlace ins a b).1 (r.poolPlace ins a b).2 := by
  unfold poolPlace
  split
  · rename_i hSlides
    exact hExact hKind hSlides
  · have hSize : r.poolSize ≤ 8 := by
      rw [h.poolSize]
      exact h.poolWithin
    refine ⟨?_, r.exactSquare_of_words hSize hA hB⟩
    have hRange := isWord_iff.mp hA
    unfold fits64
    simp only [Bool.and_eq_true, decide_eq_true_eq]
    omega

theorem pool_eq {base pitch sum : Int} (hPlace : r.poolPlace ins a b = (base, pitch))
    (hFits : fits64 base = true)
    (hMax : r.poolModeOf ins = .max → (r.square r.poolSize base pitch).max?.getD 0 = sum)
    (hAvg : r.poolModeOf ins = .avg →
      average (total (r.square r.poolSize base pitch)) (r.square r.poolSize base pitch).length
        (r.poolRounding == .nearest) = sum) :
    r.pool ins a b =
      (.ok (r.narrow sum none).2,
        { r with poolNext := base + r.poolStride, poolPitch := pitch }) := by
  have hIf : (if ins.slides = true then (r.poolNext, r.poolPitch) else (a, b)) = (base, pitch) :=
    hPlace
  unfold pool
  rw [hIf]
  dsimp only
  rw [hFits, if_neg (by decide)]
  -- the new origin changes neither what is read nor how it is reduced
  obtain ⟨r', hR⟩ : ∃ r', r' = { r with poolNext := base + r.poolStride, poolPitch := pitch } :=
    ⟨_, rfl⟩
  have hNarrow : r'.narrow sum none = r.narrow sum none := by
    rw [hR]
    rfl
  have hSquare : r'.square r.poolSize base pitch = r.square r.poolSize base pitch := by
    rw [hR]
    rfl
  rw [← hR, hSquare, ← hNarrow]
  cases hMode : r.poolModeOf ins with
  | max =>
      have hModeNow : r'.poolModeOf ins = .max := by
        rw [hR]
        exact hMode
      rw [hModeNow, hMax hMode]
  | avg =>
      have hModeNow : r'.poolModeOf ins = .avg := by
        rw [hR]
        exact hMode
      rw [hModeNow, hAvg hMode]

theorem pool_matches (h : r.Mirrors u) (hFit : u.Fit) (hKind : ins.kind = .pool)
    (hVariant : ins.funct3 = ins.mnemonic.variant)
    (hFirst : (Operand.rs1, ins.rs1) ∈ ins.sources → ops.value .rs1 = a)
    (hSecond : (Operand.rs2, ins.rs2) ∈ ins.sources → ops.value .rs2 = b)
    (hA : IsWord a) (hB : IsWord b) (hExact : r.ExactWindow ins) :
    ∃ v r', r.pool ins a b = (.ok v, r') ∧
      Matches (v, r') (u.execute .pool ins ops ((u.reads .pool ins ops).map r.peek)) := by
  have hMode : r.poolModeOf ins = u.pool.modeOf ins := by
    unfold Instruction.kind at hKind
    unfold poolModeOf Pool.modeOf
    rw [hVariant, h.poolMode]
    cases hMnemonic : ins.mnemonic <;> rw [hMnemonic] at hKind <;>
      first
        | cases hKind; done
        | rfl
  obtain ⟨hFits, hSquare⟩ := exact_poolPlace h hKind hA hB hExact
  have hOrigin := poolPlace_eq h hKind hFirst hSecond
  cases hPlace : r.poolPlace ins a b with
  | mk base pitch =>
      rw [hPlace] at hFits hSquare hOrigin
      have hWords := square_eq r hSquare
      have hReads : u.reads .pool ins ops = squareAddrs r.poolSize base pitch := by
        unfold Units.reads Pool.reads
        rw [hOrigin, h.poolSize]
      have hSome : r.square r.poolSize base pitch ≠ [] := by
        refine List.ne_nil_of_length_pos ?_
        rw [hWords, List.length_map, List.length_map, squareAddrs_length, h.poolSize]
        exact Nat.mul_pos hFit.pool hFit.pool
      obtain ⟨sum, hSum⟩ := u.pool.reduce_ok (u.pool.modeOf ins) hSome
      have hMax : r.poolModeOf ins = .max → (r.square r.poolSize base pitch).max?.getD 0 = sum := by
        intro hIs
        rw [← hMode, hIs, Pool.reduce_max _ hSome] at hSum
        exact Except.ok.inj hSum
      have hAvg : r.poolModeOf ins = .avg →
          average (total (r.square r.poolSize base pitch)) (r.square r.poolSize base pitch).length
            (r.poolRounding == .nearest) = sum := by
        intro hIs
        rw [← hMode, hIs, Pool.reduce_avg _ hSome, ← h.poolRounding] at hSum
        exact Except.ok.inj hSum
      rw [hWords, h.precision] at hSum
      refine ⟨_, _, pool_eq hPlace hFits hMax hAvg, ?_⟩
      unfold Units.execute
      dsimp only
      rw [hReads, Pool.execute_eq hOrigin hSum, narrow_eq h.precision]
      exact ⟨⟨_, rfl⟩, { h with poolNext := by rw [h.poolStride], poolPitch := rfl }⟩

end Reference

end AccelPipe

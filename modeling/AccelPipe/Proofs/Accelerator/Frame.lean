import AccelPipe.Accelerator.Units
import AccelPipe.Proofs.Config.Valid
import AccelPipe.Proofs.Instruction.Decoded

/-! What all operations of the accelerator units have in common: they succeed, they return words,
they leave the dimensions of the units alone, and only the convolution unit can tell a store that
has reached memory from one that has not. -/
namespace AccelPipe

namespace Units

/-- The dimensions of the units, which no operation changes. -/
def frame (u : Units) : Units :=
  { u with
    mac := {}, relu := {}
    conv2d :=
      { u.conv2d with kernel := [], window := [], origin := none, bufferHits := 0, tally := {} }
    fir := { u.fir with coefficients := [], samples := [], acc := 0, tally := {} }
    pool := { u.pool with nextBase := 0, pitch := 0, window := [], tally := {} } }

/-- Dimensions that a configuration allows for. -/
structure Fit (u : Units) : Prop where
  operandBits : 0 < u.precision.operandBits ∧ u.precision.operandBits ≤ 32
  conv2d : 0 < u.conv2d.size ∧ u.conv2d.size ≤ 5
  fir : u.fir.taps ≤ 64
  pool : 0 < u.pool.size

variable {u v : Units}

/-- The shape of a unit tells its latency. -/
theorem latency_eq_of_frame (h : u.frame = v.frame) (a : Accelerator) :
    u.latency a = v.latency a := by
  change u.frame.latency a = v.frame.latency a
  rw [h]

theorem Fit.of_frame (hFit : u.Fit) (h : v.frame = u.frame) : v.Fit := by
  have hFrame : u.frame.Fit := ⟨hFit.operandBits, hFit.conv2d, hFit.fir, hFit.pool⟩
  rw [← h] at hFrame
  exact ⟨hFrame.operandBits, hFrame.conv2d, hFrame.fir, hFrame.pool⟩

/-- Fresh units of an accepted configuration are of a fitting shape. -/
theorem fit_fresh {c : Config} (hValid : c.Valid) : (fresh c).Fit where
  operandBits := by
    change 0 < c.operandType.bits ∧ c.operandType.bits ≤ 32
    cases c.operandType <;> decide
  conv2d := by
    change 0 < c.kernelSize ∧ c.kernelSize ≤ 5
    have hSize := hValid.kernelSize
    omega
  fir := hValid.firTaps.2
  pool := hValid.poolWindow.1

/-- A store does not change the shape of the units, -/
theorem frame_snoop (u : Units) (addr : Int) : (u.snoop addr).frame = u.frame := by
  unfold snoop Conv2d.snoop
  split
  · split <;> rfl
  · rfl

/-- and neither does an operation. -/
theorem frame_execute (u : Units) (a : Accelerator) (ins : Instruction) (ops : Operands)
    (words : List Int) : (u.execute a ins ops words).2.frame = u.frame := by
  cases a with
  | mac =>
      unfold execute Mac.execute
      dsimp only
      split <;> rfl
  | relu => rfl
  | conv2d =>
      unfold execute Conv2d.execute
      dsimp only
      split
      · rfl
      · split
        · split <;> rfl
        · rfl
  | fir =>
      unfold execute Fir.execute
      dsimp only
      split
      · rfl
      · split <;> rfl
  | pool =>
      unfold execute Pool.execute
      dsimp only
      split <;> rfl

end Units

/-- What leaves an accumulator for a register is a word. -/
theorem Precision.outcome_word (p : Precision) (total : Int) (rule : Option Bool) :
    IsWord (p.outcome total rule).result.value := by
  unfold outcome result fit
  dsimp only
  split
  · exact isWord_of_signedRange (by decide) (by decide) (clamp_range 32 _).1 (clamp_range 32 _).2
  · exact isWord_of_signedRange (by decide) (by decide) (signExtend_range (by decide) _).1
      (signExtend_range (by decide) _).2

/-- Operands are words. -/
theorem Precision.operand_word {p : Precision} (hPos : 0 < p.operandBits)
    (hBits : p.operandBits ≤ 32) (v : Int) : IsWord (p.operand v) :=
  isWord_of_signedRange hPos hBits (signExtend_range hPos v).1 (signExtend_range hPos v).2

/-- A rectified value is a word. -/
theorem Relu.value_word {p : Precision} (hPos : 0 < p.operandBits) (hBits : p.operandBits ≤ 32)
    (ins : Instruction) (ops : Operands) : IsWord (Relu.value p ins ops) := by
  have hOperand := isWord_iff.mp (p.operand_word hPos hBits (ops.value .rs1))
  unfold Relu.value
  dsimp only
  rw [isWord_iff]
  split <;> omega

/-! A square of memory words has one word for each place. -/

/-- A square has as many places as its side squared. -/
theorem squareAddrs_length (size : Nat) (base pitch : Int) :
    (squareAddrs size base pitch).length = size * size := by
  simp only [squareAddrs, List.length_flatMap, List.length_map, List.length_range, List.map_const',
    List.sum_replicate_nat]

theorem rowAddrs_length (count : Nat) (base : Int) : (rowAddrs count base).length = count := by
  simp [rowAddrs]

/-- Dropping the oldest sample first or last is the same. -/
theorem Fir.shifted_eq_take (u : Fir) (hSome : 0 < u.samples.length) (sample : Int) :
    u.shifted sample = (sample :: u.samples).take u.samples.length := by
  obtain ⟨n, hLength⟩ : ∃ n, u.samples.length = n + 1 := ⟨u.samples.length - 1, by omega⟩
  unfold shifted
  rw [List.dropLast_eq_take, hLength]
  rfl

/-- Pooling some words has a result. -/
theorem Pool.reduce_ok (u : Pool) (mode : PoolMode) {words : List Int} (h : words ≠ []) :
    ∃ v, u.reduce mode words = .ok v := by
  cases words with
  | nil => exact absurd rfl h
  | cons w ws =>
      cases mode with
      | max => exact ⟨_, rfl⟩
      | avg => exact ⟨_, rfl⟩

/-- So pooling does not fail, and its result is a word. -/
theorem Pool.execute_ok (u : Pool) (p : Precision) (ins : Instruction) (ops : Operands)
    {words : List Int} (h : words ≠ []) :
    ∃ r, (u.execute p ins ops words).1 = .ok r ∧ IsWord r.value := by
  unfold execute
  dsimp only
  obtain ⟨v, hReduce⟩ := Pool.reduce_ok
    { u with
      nextBase := (u.origin ins ops).1 + u.stride, pitch := (u.origin ins ops).2
      window := words.map p.operand }
    (u.modeOf ins) (by simpa using h : words.map p.operand ≠ [])
  exact ⟨_, by erw [hReduce], p.outcome_word _ _⟩

namespace Units

variable {u : Units} {a : Accelerator} {word : Int} {ops : Operands}

/-- An operation on the words that it has asked for succeeds. -/
theorem execute_ok (hFit : u.Fit) (hKind : (Instruction.decode word).kind = a.kind)
    (ops : Operands) (words : List Int) (hWords : words.length = (u.reads a (Instruction.decode word) ops).length) :
    ∃ r, (u.execute a (Instruction.decode word) ops words).1 = .ok r ∧ IsWord r.value := by
  cases a with
  | mac =>
      obtain ⟨v, hVariant⟩ := Instruction.macVariant_ok hKind
      unfold execute Mac.execute
      simp only [hVariant]
      exact ⟨_, rfl, u.precision.outcome_word _ _⟩
  | relu => exact ⟨_, rfl, Relu.value_word hFit.operandBits.1 hFit.operandBits.2 _ _⟩
  | conv2d =>
      have hSize := hFit.conv2d
      unfold reads Conv2d.reads at hWords
      unfold execute Conv2d.execute
      dsimp only at hWords ⊢
      split
      · rename_i hLoads
        rw [if_pos hLoads, rowAddrs_length] at hWords
        refine ⟨_, rfl, ?_⟩
        have hSquare : u.conv2d.size * u.conv2d.size ≤ 5 * 5 := Nat.mul_le_mul hSize.2 hSize.2
        exact isWord_iff.mpr (by dsimp only; omega)
      · rename_i hNot
        rw [if_neg hNot] at hWords
        split
        · rename_i hSlides
          rw [if_pos hSlides, List.length_map, List.length_range] at hWords
          rw [if_neg (by omega)]
          exact ⟨_, rfl, u.precision.outcome_word _ _⟩
        · exact ⟨_, rfl, u.precision.outcome_word _ _⟩
  | fir =>
      have hTaps := hFit.fir
      unfold execute Fir.execute
      dsimp only
      split
      · exact ⟨_, rfl, isWord_iff.mpr (by dsimp only; omega)⟩
      · split
        · exact ⟨_, rfl, isWord_zero⟩
        · exact ⟨_, rfl, u.precision.outcome_word _ _⟩
  | pool =>
      have hPool := hFit.pool
      have hPlaces : 0 < u.pool.size * u.pool.size := Nat.mul_pos hPool hPool
      unfold reads Pool.reads at hWords
      dsimp only at hWords
      rw [squareAddrs_length] at hWords
      have hNonempty : words ≠ [] := List.ne_nil_of_length_pos (by omega)
      exact Pool.execute_ok u.pool u.precision (Instruction.decode word) ops hNonempty

/-- A convolution always reads memory. -/
theorem conv2d_reads_ne_nil (hFit : u.Fit) (ins : Instruction) :
    u.reads .conv2d ins ops ≠ [] := by
  have hSize := hFit.conv2d.1
  have hPlaces : 0 < u.conv2d.size * u.conv2d.size := Nat.mul_pos hSize hSize
  have hLength : 0 < (u.reads .conv2d ins ops).length := by
    unfold reads Conv2d.reads
    dsimp only
    split
    · rw [rowAddrs_length]
      exact hPlaces
    · split
      · rw [List.length_map, List.length_range]
        exact hSize
      · rw [squareAddrs_length]
        exact hPlaces
  exact List.ne_nil_of_length_pos hLength

/-- An operation that reads no memory cannot tell whether a store has reached it. -/
theorem execute_snoop (hFit : u.Fit) {ins : Instruction} (hReads : u.reads a ins ops = [])
    (addr : Int) (words : List Int) :
    (u.snoop addr).execute a ins ops words =
      ((u.execute a ins ops words).1, (u.execute a ins ops words).2.snoop addr) := by
  cases a with
  | conv2d => exact absurd hReads (conv2d_reads_ne_nil hFit ins)
  | mac => rfl
  | relu => rfl
  | fir => rfl
  | pool => rfl

/-- A store does not make an operation read memory that did not, -/
theorem reads_snoop (hFit : u.Fit) {ins : Instruction} (hReads : u.reads a ins ops = [])
    (addr : Int) : (u.snoop addr).reads a ins ops = [] := by
  cases a with
  | conv2d => exact absurd hReads (conv2d_reads_ne_nil hFit ins)
  | mac => rfl
  | relu => rfl
  | fir => exact hReads
  | pool => exact hReads

/-- nor the other way round. -/
theorem reads_of_snoop (hFit : u.Fit) {ins : Instruction} {addr : Int}
    (hReads : (u.snoop addr).reads a ins ops = []) : u.reads a ins ops = [] := by
  cases a with
  | conv2d => exact absurd hReads (conv2d_reads_ne_nil (hFit.of_frame (frame_snoop u addr)) ins)
  | mac => rfl
  | relu => rfl
  | fir => exact hReads
  | pool => exact hReads

end Units

end AccelPipe

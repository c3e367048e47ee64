import AccelPipe.Proofs.Reference.Sequential

/-! The convolution unit may complete the square that it has kept instead of reading a new one. No
answer shows that: whatever is loaded, stored and computed, and in whatever order, it answers as if
it read every square in full. -/
namespace AccelPipe

/-- A convolution unit beside a memory, whose addresses wrap around. -/
structure Bench where
  unit : Conv2d
  memory : Int → Int

/-- What happens beside a memory: an operation of the unit, or a store that the unit sees. -/
inductive Bench.Call where
  | operate (ins : Instruction) (ops : Operands)
  | store (addr value : Int)

/-- A memory after a store. -/
def storedAt (memory : Int → Int) (place value : Int) : Int → Int :=
  fun addr => if addr = place then value else memory addr

namespace Bench

def fresh (p : Precision) (size memWords : Nat) (table : List Int) (memory : Int → Int) : Bench :=
  ⟨{ size, memWords, kernel := table.map p.operand }, memory⟩

def word (b : Bench) (addr : Int) : Int := b.memory (addr % b.unit.memWords)

/-- An operation works on the words that it reads. -/
def call (p : Precision) (b : Bench) : Call → Option (Except Failure UnitResult) × Bench
  | .operate ins ops =>
    let (answer, unit) := b.unit.execute p ins ops ((b.unit.reads ins ops).map b.word)
    (some answer, { b with unit })
  | .store addr value =>
    let place := addr % b.unit.memWords
    (none, ⟨b.unit.snoop place, storedAt b.memory place value⟩)

/-- The answers to calls, before each of which something is done to the unit. -/
def answers (p : Precision) (prepare : Conv2d → Conv2d) (b : Bench) :
    List Call → List (Except Failure UnitResult)
  | [] => []
  | request :: rest =>
    let (answer, b) := call p { b with unit := prepare b.unit } request
    answer.toList ++ answers p prepare b rest

end Bench

/-- A unit that keeps no words: a memory and a table of coefficients. -/
structure FullReader where
  size : Nat
  memWords : Nat
  kernel : List Int
  memory : Int → Int

namespace FullReader

def fresh (p : Precision) (size memWords : Nat) (table : List Int) (memory : Int → Int) :
    FullReader :=
  ⟨size, memWords, table.map p.operand, memory⟩

def word (t : FullReader) (addr : Int) : Int := t.memory (addr % t.memWords)

/-- The sum of the products of all coefficients with the words in their places. -/
def product (p : Precision) (t : FullReader) (base pitch : Int) : Int :=
  total ((List.range t.size).map fun i : Nat => total ((List.range t.size).map fun j : Nat =>
    t.kernel.getD (i * t.size + j) 0 * p.operand (t.word (base + i * pitch + j))))

def call (p : Precision) (t : FullReader) : Bench.Call → Option UnitResult × FullReader
  | .operate ins ops =>
    if Conv2d.loads ins then
      (some ⟨(t.size * t.size : Nat), false⟩,
        { t with
          kernel := (List.range (t.size * t.size)).map fun k : Nat =>
            p.operand (t.word (ops.value .rs1 + ins.imm + k)) })
    else (some (p.outcome (t.product p (ops.value .rs1) (ops.value .rs2)) none).result, t)
  | .store addr value => (none, { t with memory := storedAt t.memory (addr % t.memWords) value })

def answers (p : Precision) (t : FullReader) : List Bench.Call → List UnitResult
  | [] => []
  | request :: rest =>
    let (answer, t) := t.call p request
    answer.toList ++ answers p t rest

end FullReader

/-! The product of a table with a square, place by place. -/

theorem dot_square (ks : List Int) (f : Int → Int) (size : Nat) (base pitch : Int) :
    dot ks ((squareAddrs size base pitch).map f) =
      total ((List.range size).map fun i : Nat => total ((List.range size).map fun j : Nat =>
        ks.getD (i * size + j) 0 * f (base + i * pitch + j))) := by
  rw [squareAddrs_eq, List.map_map, dot_map_range, map_range_mul, total_flatMap]
  refine congrArg total (List.map_congr_left fun i _ => ?_)
  refine congrArg total (List.map_congr_left fun j hPlace => ?_)
  obtain ⟨hRow, hColumn⟩ := place_div_mod (List.mem_range.mp hPlace) i
  rw [Function.comp_apply, hRow, hColumn]

namespace Bench

/-- A bench that works on the memory and the coefficients of a unit that keeps no words. -/
structure Stands (b : Bench) (t : FullReader) : Prop where
  size : b.unit.size = t.size
  positive : 0 < t.size
  memWords : b.unit.memWords = t.memWords
  kernel : b.unit.kernel = t.kernel
  memory : b.memory = t.memory
  keeps : b.unit.Keeps b.word

namespace Stands

variable {b : Bench} {t : FullReader}

theorem word (h : b.Stands t) : b.word = t.word := by
  funext addr
  unfold Bench.word FullReader.word
  rw [h.memory, h.memWords]

theorem invalidate (h : b.Stands t) : Stands { b with unit := b.unit.invalidate } t :=
  ⟨h.size, h.positive, h.memWords, h.kernel, h.memory, nofun⟩

theorem store (h : b.Stands t) (p : Precision) (addr value : Int) :
    (b.call p (.store addr value)).1 = (t.call p (.store addr value)).1.map .ok ∧
      (b.call p (.store addr value)).2.Stands (t.call p (.store addr value)).2 := by
  obtain ⟨hSize, hWords, hKernel⟩ : (b.unit.snoop (addr % b.unit.memWords)).size = b.unit.size ∧
      (b.unit.snoop (addr % b.unit.memWords)).memWords = b.unit.memWords ∧
      (b.unit.snoop (addr % b.unit.memWords)).kernel = b.unit.kernel := by
    unfold Conv2d.snoop
    split
    · split <;> exact ⟨rfl, rfl, rfl⟩
    · exact ⟨rfl, rfl, rfl⟩
  refine ⟨rfl, hSize.trans h.size, h.positive, hWords.trans h.memWords, hKernel.trans h.kernel, ?_,
    h.keeps.snoop fun place hElsewhere => ?_⟩
  · unfold Bench.call FullReader.call
    rw [h.memory, h.memWords]
  · unfold Bench.call Bench.word
    dsimp only
    rw [hWords]
    exact if_neg hElsewhere

theorem load (h : b.Stands t) (p : Precision) {ins : Instruction} (hLoads : Conv2d.loads ins = true)
    (ops : Operands) :
    (b.call p (.operate ins ops)).1 = (t.call p (.operate ins ops)).1.map .ok ∧
      (b.call p (.operate ins ops)).2.Stands (t.call p (.operate ins ops)).2 := by
  unfold Bench.call FullReader.call Conv2d.execute Conv2d.reads
  dsimp only
  rw [hLoads]
  simp only [if_true]
  refine ⟨?_, h.size, h.positive, h.memWords, ?_, h.memory, h.keeps⟩
  · simp [rowAddrs, h.size]
  · unfold rowAddrs
    rw [List.map_map, List.map_map, h.size, h.word]
    rfl

/-- Whether the unit reads a square or completes one, its answer is that of the full square. -/
theorem convolve (h : b.Stands t) (p : Precision) {ins : Instruction}
    (hLoads : Conv2d.loads ins = false) (ops : Operands) :
    (b.call p (.operate ins ops)).1 = (t.call p (.operate ins ops)).1.map .ok ∧
      (b.call p (.operate ins ops)).2.Stands (t.call p (.operate ins ops)).2 := by
  have hSize : 0 < b.unit.size := h.size ▸ h.positive
  obtain ⟨hits, hExecute⟩ := Conv2d.execute_square hSize h.keeps p hLoads ops
  have hProduct : dot b.unit.kernel (((squareAddrs b.unit.size (ops.value .rs1)
      (ops.value .rs2)).map b.word).map p.operand) = t.product p (ops.value .rs1) (ops.value .rs2) := by
    rw [List.map_map, dot_square, h.kernel, h.size, h.word]
    rfl
  unfold Bench.call FullReader.call
  dsimp only
  rw [hExecute, hLoads]
  simp only [Bool.false_eq_true, if_false]
  refine ⟨?_, h.size, h.positive, h.memWords, h.kernel, h.memory, ?_⟩
  · rw [← hProduct]
    rfl
  · intro o hOrigin
    obtain rfl := Option.some.inj hOrigin
    rfl

theorem call (h : b.Stands t) (p : Precision) (request : Call) :
    (b.call p request).1 = (t.call p request).1.map .ok ∧
      (b.call p request).2.Stands (t.call p request).2 := by
  cases request with
  | store addr value => exact h.store p addr value
  | operate ins ops =>
      cases hLoads : Conv2d.loads ins with
      | true => exact h.load p hLoads ops
      | false => exact h.convolve p hLoads ops

/-- The answers of a whole run, if the unit is only ever made to forget its square. -/
theorem answers (h : b.Stands t) (p : Precision) {prepare : Conv2d → Conv2d}
    (hPrepare : ∀ u, prepare u = u ∨ prepare u = u.invalidate) (calls : List Call) :
    b.answers p prepare calls = (t.answers p calls).map .ok := by
  induction calls generalizing b t with
  | nil => rfl
  | cons request rest ih =>
      have hPrepared : Stands { b with unit := prepare b.unit } t := by
        rcases hPrepare b.unit with hSame | hForgets
        · rw [hSame]
          exact h
        · rw [hForgets]
          exact h.invalidate
      obtain ⟨hAnswer, hNext⟩ := hPrepared.call p request
      unfold Bench.answers FullReader.answers
      dsimp only
      rw [hAnswer, ih hNext, List.map_append]
      cases (t.call p request).1 <;> rfl

end Stands

/-- The answers of a unit that reuses its square are those of a unit that reads every square in
full, and they are the products that they stand for. -/
theorem answers_eq_full_read (p : Precision) {size : Nat} (hSize : 0 < size) (memWords : Nat)
    (table : List Int) (memory : Int → Int) (calls : List Call) :
    (fresh p size memWords table memory).answers p id calls =
        ((FullReader.fresh p size memWords table memory).answers p calls).map .ok ∧
      (fresh p size memWords table memory).answers p Conv2d.invalidate calls =
        ((FullReader.fresh p size memWords table memory).answers p calls).map .ok := by
  have hFresh : (fresh p size memWords table memory).Stands
      (.fresh p size memWords table memory) := ⟨rfl, hSize, rfl, rfl, rfl, nofun⟩
  exact ⟨hFresh.answers p (fun _ => .inl rfl) calls, hFresh.answers p (fun _ => .inr rfl) calls⟩

/-- A square whose rows run backwards and around the memory is moved by a word, a store changes one
of its words, new coefficients are loaded, and it is moved again. -/
theorem answers_eq_full_read_of_slide :
    let p : Precision := ⟨8, 16, true⟩
    let bench := fresh p 3 8 [1, 2, 3, 4, 5, 6, 7, 8, 9] fun addr => addr
    let conv2d (base : Int) : Call :=
      .operate (.decode 0x0e) { rs1 := some base, rs2 := some (-3) }
    let calls := [conv2d 6, conv2d 7, .store (-3) 100,
      .operate (.decode 0x100e) { rs1 := some 2 }, conv2d 8]
    0 < 3 ∧ (bench.answers p id calls).length = 4 ∧
      ((bench.call p (conv2d 6)).2.call p (conv2d 7)).2.unit.bufferHits = 1 ∧
      bench.answers p id calls = bench.answers p Conv2d.invalidate calls := by
  intro p bench conv2d calls
  obtain ⟨hReuse, hFull⟩ := answers_eq_full_read p (show 0 < 3 by decide) 8
    [1, 2, 3, 4, 5, 6, 7, 8, 9] (fun addr => addr) calls
  exact ⟨by decide, by decide +kernel, by decide +kernel, hReuse.trans hFull.symm⟩

end Bench

end AccelPipe

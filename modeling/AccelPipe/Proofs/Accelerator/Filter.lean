import AccelPipe.Proofs.Config.Valid
import AccelPipe.Proofs.Reference.Window
import Mathlib.Algebra.BigOperators.Group.Finset.Defs

/-! The filter computes the convolution of its coefficients with its inputs. It keeps as many
samples as it has coefficients; what it answers is what it would answer if it kept every input since
the samples were last cleared. The unit drops its oldest sample before the new one comes, the
reference machine afterwards. -/
namespace AccelPipe

/-- An instruction of the filter with its operands, and the memory that it is executed on. -/
structure FirStep where
  word : Int
  ops : Operands
  memory : Array Int
  filters : (Instruction.decode word).kind = .fir

namespace FirStep

variable (s : FirStep)

def instruction : Instruction := .decode s.word

def mnemonic : Mnemonic := s.instruction.mnemonic

def input : Int := s.ops.value .rs1

/-- The memory word at an address, which wraps around at the size of the memory. -/
def peek (addr : Int) : Int := s.memory.getD (addr % s.memory.size).toNat 0

/-- The words from the address that the instruction names. -/
def table (taps : Nat) : List Int := (rowAddrs taps (s.input + s.instruction.imm)).map s.peek

def onUnit (p : Precision) (u : Fir) : UnitResult × Fir :=
  u.execute p s.instruction s.ops ((u.reads s.instruction s.ops).map s.peek)

def onReference (r : Reference) : Int × Reference :=
  { r with memory := s.memory }.filter s.instruction s.input

/-- The inputs since the samples were last cleared, the newest first. -/
def inputs (steps : List FirStep) : List Int :=
  ((steps.reverse.takeWhile (·.mnemonic != .firClr)).filter (·.mnemonic == .fir)).map input

/-- The table that was loaded last, or else the configured one. -/
def lastTable (c : Config) (steps : List FirStep) : List Int :=
  ((steps.reverse.find? (·.mnemonic == .firLd)).map (·.table c.firTaps)).getD c.firTable

theorem mnemonic_cases : s.mnemonic = .fir ∨ s.mnemonic = .firLd ∨ s.mnemonic = .firClr :=
  Mnemonic.of_kind_fir s.filters

/-- The variant of an instruction is the one that its name says. -/
theorem funct3 : s.instruction.funct3 = s.mnemonic.variant :=
  Instruction.funct3_decode s.word (by rw [s.filters]; rfl)

variable {s} (c : Config) (before : List FirStep)

/-- A filter step has its input in front of the earlier ones. -/
theorem inputs_fir (h : s.mnemonic = .fir) : inputs (before ++ [s]) = s.input :: inputs before := by
  unfold inputs
  rw [List.reverse_append, List.reverse_singleton, List.singleton_append,
    List.takeWhile_cons_of_pos (by rw [h]; rfl), List.filter_cons_of_pos (by rw [h]; rfl),
    List.map_cons]

/-- Loading coefficients has no input. -/
theorem inputs_firLd (h : s.mnemonic = .firLd) : inputs (before ++ [s]) = inputs before := by
  unfold inputs
  rw [List.reverse_append, List.reverse_singleton, List.singleton_append,
    List.takeWhile_cons_of_pos (by rw [h]; rfl), List.filter_cons_of_neg (by rw [h]; decide)]

/-- Clearing forgets all inputs. -/
theorem inputs_firClr (h : s.mnemonic = .firClr) : inputs (before ++ [s]) = [] := by
  unfold inputs
  rw [List.reverse_append, List.reverse_singleton, List.singleton_append,
    List.takeWhile_cons_of_neg (by rw [h]; decide), List.filter_nil, List.map_nil]

/-- The last table that was loaded counts. -/
theorem lastTable_firLd (h : s.mnemonic = .firLd) :
    lastTable c (before ++ [s]) = s.table c.firTaps := by
  unfold lastTable
  rw [List.reverse_append, List.reverse_singleton, List.singleton_append,
    List.find?_cons_of_pos (by rw [h]; rfl)]
  rfl

theorem lastTable_of_ne (h : s.mnemonic ≠ .firLd) :
    lastTable c (before ++ [s]) = lastTable c before := by
  unfold lastTable
  rw [List.reverse_append, List.reverse_singleton, List.singleton_append,
    List.find?_cons_of_neg (by rw [beq_iff_eq]; exact h)]

end FirStep

namespace Precision

variable (p : Precision)

theorem operand_zero : p.operand 0 = 0 := Int.zero_bmod

/-- The newest of some inputs at operand width, with zeros for those that are missing. -/
def newest (taps : Nat) (inputs : List Int) : List Int :=
  (List.range taps).map fun i => p.operand (inputs.getD i 0)

/-- Before any input all samples are zero. -/
theorem newest_nil (taps : Nat) : p.newest taps [] = List.replicate taps 0 := by
  unfold newest
  simp only [List.getD_nil, operand_zero, List.map_const', List.length_range]

theorem length_newest (taps : Nat) (inputs : List Int) : (p.newest taps inputs).length = taps := by
  unfold newest
  rw [List.length_map, List.length_range]

/-- One more input moves the others on by one place, and the oldest drops out. -/
theorem newest_cons {taps : Nat} (hTaps : 0 < taps) (x : Int) (inputs : List Int) :
    p.newest taps (x :: inputs) = (p.operand x :: p.newest taps inputs).take taps := by
  obtain ⟨n, rfl⟩ : ∃ n, taps = n + 1 := ⟨taps - 1, by omega⟩
  have hNewer : (p.newest (n + 1) inputs).take n = p.newest n inputs := by
    unfold newest
    rw [← List.map_take, List.take_range, Nat.min_eq_left (Nat.le_succ n)]
  rw [List.take_succ_cons, hNewer]
  unfold newest
  rw [List.range_succ_eq_map, List.map_cons, List.map_map]
  rfl

/-- The sum of the products of coefficients with samples, place by place. -/
theorem dot_newest (taps : Nat) (table inputs : List Int) :
    dot (table.map p.operand) (p.newest taps inputs) =
      ∑ i ∈ Finset.range taps, p.operand (table.getD i 0) * p.operand (inputs.getD i 0) := by
  have hTable (i : Nat) : (table.map p.operand).getD i 0 = p.operand (table.getD i 0) := by
    rw [List.getD_eq_getElem?_getD, List.getD_eq_getElem?_getD, List.getElem?_map]
    cases table[i]? with
    | none => exact p.operand_zero.symm
    | some word => rfl
  unfold newest
  rw [dot_map_range]
  simp only [hTable]
  rfl

end Precision

/-- A filter unit that has executed some steps. -/
structure Fir.Heard (c : Config) (steps : List FirStep) (u : Fir) : Prop where
  taps : u.taps = c.firTaps
  coefficients : u.coefficients = (FirStep.lastTable c steps).map c.precision.operand
  samples : u.samples = c.precision.newest c.firTaps (FirStep.inputs steps)

/-- The reference machine after the same steps. -/
structure Reference.Heard (c : Config) (steps : List FirStep) (r : Reference) : Prop where
  precision : r.precision = c.precision
  coefficients : r.coefficients = (FirStep.lastTable c steps).map c.precision.operand
  samples : r.samples = c.precision.newest c.firTaps (FirStep.inputs steps)

/-- What the filter answers to a step: the number of coefficients that it has loaded, nothing after
it has cleared its samples, and otherwise the convolution, on its way through the accumulator. -/
def FirStep.answer (c : Config) (before : List FirStep) (s : FirStep) : Int :=
  match s.mnemonic with
  | .firLd => c.firTaps
  | .firClr => 0
  | _ =>
    (c.precision.outcome (∑ i ∈ Finset.range c.firTaps,
      c.precision.operand ((lastTable c before).getD i 0) *
        c.precision.operand ((inputs (before ++ [s])).getD i 0)) none).result.value

section Steps

variable {c : Config} {before : List FirStep} (hTaps : 0 < c.firTaps)
include hTaps

/-- The unit answers a step as its inputs say, and has heard that one, too. -/
theorem Fir.Heard.step {u : Fir} (h : u.Heard c before) (s : FirStep) :
    (s.onUnit c.precision u).1.value = s.answer c before ∧
      (s.onUnit c.precision u).2.Heard c (before ++ [s]) := by
  unfold FirStep.onUnit FirStep.answer execute reads loads clears
  rw [s.funct3]
  rcases s.mnemonic_cases with hMnemonic | hMnemonic | hMnemonic <;> rw [hMnemonic] <;>
    dsimp only [Mnemonic.variant]
  · have hLength : u.samples.length = c.firTaps := by
      rw [h.samples, Precision.length_newest]
    have hTable := FirStep.lastTable_of_ne c before (s := s) (by rw [hMnemonic]; decide)
    have hSamples : u.shifted (c.precision.operand s.input) =
        c.precision.newest c.firTaps (FirStep.inputs (before ++ [s])) := by
      rw [FirStep.inputs_fir before hMnemonic, Precision.newest_cons _ hTaps, ← h.samples,
        ← hLength]
      exact u.shifted_eq_take (by omega) _
    refine ⟨?_, h.taps, ?_, hSamples⟩
    · rw [← Precision.dot_newest, ← hSamples, ← h.coefficients]
      rfl
    · rw [hTable]
      exact h.coefficients
  · have hTable := FirStep.lastTable_firLd c before hMnemonic
    have hInputs := FirStep.inputs_firLd before hMnemonic
    refine ⟨congrArg Nat.cast h.taps, h.taps, ?_, ?_⟩
    · rw [hTable, ← h.taps]
      rfl
    · rw [hInputs]
      exact h.samples
  · have hTable := FirStep.lastTable_of_ne c before (s := s) (by rw [hMnemonic]; decide)
    have hInputs := FirStep.inputs_firClr before hMnemonic
    refine ⟨rfl, h.taps, ?_, ?_⟩
    · rw [hTable]
      exact h.coefficients
    · rw [hInputs, Precision.newest_nil, ← h.taps]
      rfl

/-- So does the reference machine. -/
theorem Reference.Heard.step {r : Reference} (h : r.Heard c before) (s : FirStep) :
    (s.onReference r).1 = s.answer c before ∧ (s.onReference r).2.Heard c (before ++ [s]) := by
  have hLength : r.samples.length = c.firTaps := by
    rw [h.samples, Precision.length_newest]
  have hName : s.instruction.mnemonic = s.mnemonic := rfl
  unfold FirStep.onReference FirStep.answer filter
  rw [hName]
  dsimp only
  rw [hLength, h.precision]
  rcases s.mnemonic_cases with hMnemonic | hMnemonic | hMnemonic <;> rw [hMnemonic] <;>
    dsimp only
  · have hTable := FirStep.lastTable_of_ne c before (s := s) (by rw [hMnemonic]; decide)
    have hSamples : (c.precision.operand s.input :: r.samples).take c.firTaps =
        c.precision.newest c.firTaps (FirStep.inputs (before ++ [s])) := by
      rw [FirStep.inputs_fir before hMnemonic, Precision.newest_cons _ hTaps, ← h.samples]
    refine ⟨?_, rfl, ?_, hSamples⟩
    · rw [← Precision.dot_newest, ← hSamples, ← h.coefficients]
      rfl
    · rw [hTable]
      exact h.coefficients
  · have hTable := FirStep.lastTable_firLd c before hMnemonic
    have hInputs := FirStep.inputs_firLd before hMnemonic
    refine ⟨rfl, rfl, ?_, ?_⟩
    · rw [hTable, row_eq]
      rfl
    · rw [hInputs]
      exact h.samples
  · have hTable := FirStep.lastTable_of_ne c before (s := s) (by rw [hMnemonic]; decide)
    have hInputs := FirStep.inputs_firClr before hMnemonic
    refine ⟨rfl, rfl, ?_, ?_⟩
    · rw [hTable]
      exact h.coefficients
    · rw [hInputs, Precision.newest_nil]

end Steps

/-- The unit after some steps. -/
def Fir.after (p : Precision) (u : Fir) (steps : List FirStep) : Fir :=
  steps.foldl (fun u s => (s.onUnit p u).2) u

/-- The reference machine after some steps. -/
def Reference.filtered (r : Reference) (steps : List FirStep) : Reference :=
  steps.foldl (fun r s => (s.onReference r).2) r

/-- The unit has heard all steps that it was given. -/
theorem Fir.heard_after {c : Config} (hTaps : 0 < c.firTaps) (steps : List FirStep) :
    ((Units.fresh c).fir.after c.precision steps).Heard c steps := by
  induction steps using List.reverseRecOn with
  | nil => exact ⟨rfl, rfl, (Precision.newest_nil _ _).symm⟩
  | append_singleton steps s ih =>
      unfold after
      rw [List.foldl_append]
      exact (Heard.step hTaps ih s).2

/-- The reference machine has heard them as well. -/
theorem Reference.heard_filtered {c : Config} (hTaps : 0 < c.firTaps) (program : Image)
    (steps : List FirStep) : ((fresh c program).filtered steps).Heard c steps := by
  induction steps using List.reverseRecOn with
  | nil => exact ⟨rfl, rfl, (Precision.newest_nil _ _).symm⟩
  | append_singleton steps s ih =>
      unfold filtered
      rw [List.foldl_append]
      exact (Heard.step hTaps ih s).2

/-- After any filter instructions, on whatever memories, an input is answered with the sum of the
products of the coefficients with the inputs since the samples were last cleared, the newest with
the first coefficient. The coefficients are those that were loaded last. Loading coefficients keeps
the samples, clearing the samples keeps the coefficients, and the reference machine answers every
instruction as the unit does. -/
theorem Fir.convolves {c : Config} (hValid : c.Valid) (program : Image) (before : List FirStep)
    (s : FirStep) :
    let p := c.precision
    let u := (Units.fresh c).fir.after p before
    let r := (Reference.fresh c program).filtered before
    (s.mnemonic = .fir →
      (s.onUnit p u).1.value =
        (p.result (p.accumulate (∑ i ∈ Finset.range c.firTaps,
          p.operand ((FirStep.lastTable c before).getD i 0) *
            p.operand ((FirStep.inputs (before ++ [s])).getD i 0)) none).1 none).1) ∧
    (s.mnemonic = .firLd → (s.onUnit p u).2.samples = u.samples) ∧
    (s.mnemonic = .firClr → (s.onUnit p u).2.coefficients = u.coefficients) ∧
    (s.onReference r).1 = (s.onUnit p u).1.value := by
  intro p u r
  have hTaps : 0 < c.firTaps := hValid.firTaps.1
  have hBefore : u.Heard c before := Fir.heard_after hTaps before
  obtain ⟨hAnswer, hAfter⟩ := hBefore.step hTaps s
  have hReference := ((Reference.heard_filtered hTaps program before).step hTaps s).1
  refine ⟨fun hFir => ?_, fun hLd => ?_, fun hClr => ?_, hReference.trans hAnswer.symm⟩
  · rw [hAnswer]
    unfold FirStep.answer
    rw [hFir]
    rfl
  · rw [hAfter.samples, hBefore.samples, FirStep.inputs_firLd before hLd]
  · rw [hAfter.coefficients, hBefore.coefficients,
      FirStep.lastTable_of_ne c before (by rw [hClr]; decide)]

/-- The sample 5 outlives the table 2, 3 that is loaded after it, so that 9 is answered with
2 * 9 + 3 * 5; a word of memory is cut to the eight bits of an operand. -/
theorem Fir.convolves_of_reloaded_table :
    let c : Config := { operandType := .int8, firTaps := 2 }
    let input (x : Int) : FirStep := ⟨0x000b, { rs1 := some x }, #[], by decide +kernel⟩
    let reload : FirStep := ⟨0x40100b, { rs1 := some 0 }, #[0, 0, 0, 0, 2, 259], by decide +kernel⟩
    let u := (Units.fresh c).fir.after c.precision [input 5, reload]
    let r := (Reference.fresh c #[]).filtered [input 5, reload]
    c.Valid ∧ (input 9).mnemonic = .fir ∧
      ((input 9).onUnit c.precision u).1.value = 33 ∧ ((input 9).onReference r).1 = 33 := by
  intro c input reload u r
  have hValid : c.Valid := by constructor <;> decide
  have hFir : (input 9).mnemonic = .fir := by decide +kernel
  obtain ⟨hSum, -, -, hSame⟩ := Fir.convolves hValid #[] [input 5, reload] (input 9)
  have hValue : ((input 9).onUnit c.precision u).1.value = 33 :=
    (hSum hFir).trans (by decide +kernel)
  exact ⟨hValid, hFir, hValue, hSame.trans hValue⟩

end AccelPipe

import AccelPipe.Proofs.Reference.Sequential
import AccelPipe.Proofs.Simulator.Start

/-! A reference machine at the start of a run, with all data in its memory, and its comparison with
the pipeline at the end. -/
namespace AccelPipe

namespace Reference

variable {r : Reference}

/-- Loading data changes memory only. -/
theorem load_rest (r : Reference) (addr : Int) (words : List Int) (memory : Array Int) :
    { r.load addr words with memory } = { r with memory } := by
  induction words generalizing r addr with
  | nil => rfl
  | cons w ws ih => exact ih (r.poke addr w) (addr + 1)

theorem loadAll_rest (r : Reference) (data : List (Int × List Int)) (memory : Array Int) :
    { r.loadAll data with memory } = { r with memory } := by
  induction data generalizing r with
  | nil => rfl
  | cons d ds ih => exact (ih (r.load d.1 d.2)).trans (r.load_rest d.1 d.2 memory)

theorem load_size (r : Reference) (addr : Int) (words : List Int) :
    (r.load addr words).memory.size = r.memory.size := by
  induction words generalizing r addr with
  | nil => rfl
  | cons w ws ih => exact (ih (r.poke addr w) (addr + 1)).trans Array.size_setIfInBounds

theorem loadAll_size (r : Reference) (data : List (Int × List Int)) :
    (r.loadAll data).memory.size = r.memory.size := by
  induction data generalizing r with
  | nil => rfl
  | cons d ds ih => exact (ih (r.load d.1 d.2)).trans (r.load_size d.1 d.2)

theorem peek_load (h : 0 < r.memory.size) (addr : Int) (words : List Int) :
    (r.load addr words).peek = pokeWords r.memory.size r.peek addr words := by
  induction words generalizing r addr with
  | nil => rfl
  | cons w ws ih =>
      have hSize : (r.poke addr w).memory.size = r.memory.size := Array.size_setIfInBounds
      have hPoke : (r.poke addr w).peek = pokeWord r.memory.size r.peek addr w := by
        funext place
        exact peek_poke h addr w place
      change ((r.poke addr w).load (addr + 1) ws).peek = _
      rw [ih (by rw [hSize]; exact h), hSize, hPoke]
      rfl

theorem peek_loadAll (h : 0 < r.memory.size) (data : List (Int × List Int)) :
    (r.loadAll data).peek = pokeAll r.memory.size r.peek data := by
  induction data generalizing r with
  | nil => rfl
  | cons d ds ih =>
      have hSize := r.load_size d.1 d.2
      change ((r.load d.1 d.2).loadAll ds).peek = _
      rw [ih (by rw [hSize]; exact h), hSize, peek_load h]
      rfl

theorem peek_fresh (c : Config) (program : Image) (addr : Int) :
    (fresh c program).peek addr = 0 := by
  unfold peek fresh
  rw [Array.getD_eq_getD_getElem?, Array.getElem?_replicate]
  split <;> rfl

/-- At the start of a run the units have the state of the reference machine. -/
theorem mirrors_fresh {c : Config} (h : c.Valid) (program : Image) :
    (fresh c program).Mirrors (Units.fresh c) where
  precision := rfl
  kernelSize := rfl
  kernel := rfl
  coefficients := rfl
  samples := rfl
  taps := List.length_replicate
  someTap := h.firTaps.1
  macAcc := rfl
  poolSize := rfl
  poolWithin := h.poolWindow.2
  poolStride := rfl
  poolMode := rfl
  poolRounding := rfl
  poolNext := rfl
  poolPitch := rfl

end Reference

/-- A run starts with both machines in the same state. -/
theorem Config.Valid.agrees {c : Config} (h : c.Valid) (program : Image)
    (data : List (Int × List Int)) :
    Agrees (c.reference program data) (c.machine program data) := by
  have hRest := (Reference.fresh c program).loadAll_rest data #[]
  have hMemory := (Reference.fresh c program).loadAll_size data
  have hWords : (Reference.fresh c program).memory.size = c.memWords := Array.size_replicate
  have hMirrors : ({ c.reference program data with memory := #[] } : Reference).Mirrors
      (Units.fresh c) := by
    unfold Config.reference
    rw [hRest]
    exact { Reference.mirrors_fresh h program with }
  refine ⟨?_, ?_, hMemory.trans hWords, ?_, { hMirrors with }, ?_⟩
  · exact congrArg Reference.program hRest
  · exact congrArg Reference.registers hRest
  · refine (Reference.peek_loadAll ?_ data).trans ?_
    · rw [hWords]
      exact h.memWords
    · rw [hWords, funext (Reference.peek_fresh c program)]
      rfl
  · intro o hOrigin
    cases hOrigin

/-- Nothing is checked at the start of a run, and execution begins where the configuration says. -/
theorem Config.reference_rest (c : Config) (program : Image) (data : List (Int × List Int)) :
    (c.reference program data).expectedPc = c.startPc ∧
      (c.reference program data).checked = 0 ∧ (c.reference program data).mismatches = 0 := by
  have hRest := (Reference.fresh c program).loadAll_rest data #[]
  exact ⟨congrArg Reference.expectedPc hRest, congrArg Reference.checked hRest,
    congrArg Reference.mismatches hRest⟩

/-- A run starts with both machines in step. -/
theorem Config.Valid.inStep {c : Config} (h : c.Valid) {program : Image}
    (hSize : program.size < 0x40000000) (data : List (Int × List Int)) :
    InStep (c.reference program data) (c.machine program data) :=
  ⟨h.agrees program data, (c.reference_rest program data).1, h.sound_machine program data, hSize⟩

/-- The words of the reference machine in the order of their addresses. -/
theorem Reference.memory_toList (r : Reference) :
    r.memory.toList = (List.range r.memory.size).map fun i : Nat => r.peek i := by
  apply List.ext_getElem
  · rw [List.length_map, List.length_range, Array.length_toList]
  · intro i hLeft hRight
    have hLess : i < r.memory.size := by simpa using hLeft
    have hWrap : r.wrap i = i := by
      unfold wrap
      rw [Int.emod_eq_of_lt (by omega) (by omega), Int.toNat_natCast]
    rw [List.getElem_map, List.getElem_range, Array.getElem_toList]
    unfold peek
    rw [hWrap, Array.getD_eq_getD_getElem?, Array.getElem?_eq_getElem hLess]
    rfl

/-- Two lists side by side, with their places. -/
theorem mem_zipIdx_zip {xs ys : List Int} {x y : Int} {i : Nat} :
    ((x, y), i) ∈ (xs.zip ys).zipIdx ↔ xs[i]? = some x ∧ ys[i]? = some y := by
  rw [List.mem_zipIdx_iff_getElem?, List.getElem?_zip_eq_some]

/-- The comparison of the registers finds every difference, and takes their low 32 bits only. -/
theorem Reference.registerMismatches_eq_nil_iff {r : Reference} {registers : List Int} :
    r.registerMismatches registers = [] ↔
      ∀ i v w, 1 ≤ i → registers[i]? = some v → r.registers.toList[i]? = some w → s32 v = w := by
  unfold registerMismatches
  rw [List.filterMap_eq_nil_iff]
  constructor
  · intro hNone i v w hPlace hFound hExpected
    have hHeld : ((v, w), i) ∈ ((registers.zip r.registers.toList).zipIdx.drop 1) := by
      obtain ⟨k, rfl⟩ : ∃ k, i = 1 + k := ⟨i - 1, by omega⟩
      have hPair : (registers.zip r.registers.toList)[1 + k]? = some (v, w) :=
        List.getElem?_zip_eq_some.mpr ⟨hFound, hExpected⟩
      rw [List.mem_iff_getElem?]
      refine ⟨k, ?_⟩
      rw [List.getElem?_drop, List.getElem?_zipIdx, hPair, Nat.zero_add]
      rfl
    simpa using hNone _ hHeld
  · rintro hSame ⟨⟨v, w⟩, i⟩ hHeld
    obtain ⟨hFound, hExpected⟩ := mem_zipIdx_zip.mp (List.mem_of_mem_drop hHeld)
    have hPlace : 1 ≤ i := by
      obtain ⟨k, hAt⟩ := List.mem_iff_getElem?.mp hHeld
      rw [List.getElem?_drop, List.getElem?_zipIdx] at hAt
      obtain ⟨pair, -, hIs⟩ := Option.map_eq_some_iff.mp hAt
      cases hIs
      omega
    exact if_pos (hSame i v w hPlace hFound hExpected)

/-- The comparison of the memories finds every difference, although it does not list them all. -/
theorem Reference.memoryMismatches_eq_nil_iff {r : Reference} {words : List Int}
    (hLength : words.length = r.memory.size) :
    r.memoryMismatches words = [] ↔ words = r.memory.toList := by
  unfold memoryMismatches
  dsimp only
  rw [List.append_eq_nil_iff, List.take_eq_nil_iff]
  constructor
  · rintro ⟨hListed, -⟩
    have hNone := List.filterMap_eq_nil_iff.mp (hListed.resolve_left (by decide))
    apply List.ext_getElem
    · rw [hLength, Array.length_toList]
    · intro i hLeft hRight
      have hHeld := mem_zipIdx_zip.mpr
        ⟨List.getElem?_eq_getElem hLeft, List.getElem?_eq_getElem hRight⟩
      simpa using hNone _ hHeld
  · rintro rfl
    have hNone : ∀ found expected i,
        ((found, expected), i) ∈ (r.memory.toList.zip r.memory.toList).zipIdx →
          found = expected := by
      intro found expected i hHeld
      obtain ⟨hFound, hExpected⟩ := mem_zipIdx_zip.mp hHeld
      exact Option.some.inj (hFound.symm.trans hExpected)
    rw [List.filterMap_eq_nil_iff.mpr]
    · exact ⟨.inr rfl, rfl⟩
    · rintro ⟨⟨found, expected⟩, i⟩ hHeld
      exact if_pos (hNone found expected i hHeld)

/-- A register as it stands among all of them. -/
theorem Registers.read_of_toList {registers : Registers} {i : Nat} {w : Int} (hPlace : i ≠ 0)
    (h : registers.toList[i]? = some w) : registers.read i = w := by
  unfold read
  rw [if_neg hPlace, ← Vector.getElem?_toList]
  exact congrArg (Option.getD · 0) h

/-- A register file whose registers are words is not told from itself. -/
theorem Reference.registerMismatches_nil {r : Reference} {registers : Registers}
    (hSame : r.registers = registers) (hWords : ∀ i, IsWord (registers.read i)) :
    r.registerMismatches registers.toList = [] := by
  rw [registerMismatches_eq_nil_iff, hSame]
  intro i v w hPlace hFound hExpected
  obtain rfl : v = w := Option.some.inj (hFound.symm.trans hExpected)
  rw [← Registers.read_of_toList (Nat.ne_of_gt hPlace) hFound]
  exact hWords i

/-- Words can be kept in 64 bits. -/
theorem Reference.all_fits64 {words : List Int} (h : ∀ w ∈ words, IsWord w) :
    words.all fits64 = true := by
  rw [List.all_eq_true]
  intro w hHeld
  have hWord := isWord_iff.mp (h w hHeld)
  simp only [fits64, Bool.and_eq_true, decide_eq_true_eq]
  omega

/-- The words of a memory that stands for that of the reference machine. -/
theorem Memory.snapshot_eq {memory : Memory} {r : Reference} (hSize : memory.size = r.memory.size)
    (hWords : memory.peek = r.peek) : memory.snapshot = r.memory.toList := by
  unfold snapshot
  rw [r.memory_toList, hSize, hWords]

namespace Agrees

variable {r : Reference} {a : Machine} {memory : Memory}

/-- The comparison at the end finds nothing. -/
theorem compareFinal (h : Agrees r a) (hSound : a.Sound) (hMemory : memory.Sound)
    (hSize : memory.size = a.size) (hWords : memory.peek = a.memory) {registers : Registers}
    (hRegisters : registers = a.registers) :
    r.compareFinal registers.toList memory.snapshot = .ok [] := by
  have hFits := Reference.all_fits64 fun _ => Memory.snapshot_word hMemory
  unfold Reference.compareFinal
  rw [if_pos hFits, Memory.snapshot_eq (hSize.trans h.size.symm) (hWords.trans h.words.symm),
    (Reference.memoryMismatches_eq_nil_iff Array.length_toList).mpr rfl,
    Reference.registerMismatches_nil (h.registers.trans hRegisters.symm)]
  · rfl
  · rw [hRegisters]
    exact hSound.registers

end Agrees

end AccelPipe

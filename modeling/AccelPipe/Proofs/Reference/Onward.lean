import AccelPipe.Proofs.Reference.Exact

/-! Programs that only go forward. Where every branch and every jump goes to a later word and none
goes past the last one, sequential execution comes closer to the last word with every instruction,
and so it gets there. -/
namespace AccelPipe

/-- The address of a word that lies behind a place of a program, and not past its last word. -/
def Ahead (last place : Nat) (target : Int) : Prop :=
  target % 4 = 0 ∧ 4 * (place : Int) < target ∧ target ≤ 4 * (last : Int)

/-- An instruction in a place of a program that goes on to a later word, and not past the last one.
An absolute jump does not depend on any register. -/
structure Instruction.Onward (last place : Nat) (ins : Instruction) : Prop where
  legal : ins.kind ≠ .illegal
  near : ins.mnemonic.format = .b ∨ ins.mnemonic = .jal → Ahead last place (4 * place + ins.imm)
  far : ins.mnemonic = .jalr → ins.rs1 = 0 ∧ Ahead last place ins.imm

/-- A program that runs off through its last word, the only one that ends it. -/
structure RunsOff (words : List Nat) : Prop where
  nonempty : 0 < words.length
  word : ∀ w ∈ words, w < 0x100000000
  onward : ∀ place w : Nat, words[place]? = some w →
    (Instruction.decode w).Onward (words.length - 1) place
  closing : ∀ place w : Nat, words[place]? = some w →
    ((Instruction.decode w).kind = .system ↔ place + 1 = words.length)

/-- The word at a place of the program is fetched from there. -/
theorem Image.fetch_toArray {words : List Nat} {place w : Nat} (h : words[place]? = some w) :
    Image.fetch words.toArray (4 * place) = w := by
  unfold Image.fetch
  rw [if_neg (by omega), show ((4 * place : Int) / 4).toNat = place by omega,
    Array.getD_eq_getD_getElem?, List.getElem?_toArray, h]
  rfl

namespace Reference

/-- The window of the next instruction, if it slides, starts at a number of 64 bits. -/
def WindowFits (r : Reference) : Prop :=
  r.instruction.kind = .pool → r.instruction.slides = true → fits64 r.poolNext = true

/-- So do all windows of the first instructions of a run. -/
def WindowsFit (r : Reference) (n : Nat) : Prop := ∀ i < n, r.Runs i → (after i r).WindowFits

variable {r : Reference} {ins : Instruction} {pc : Int}

/-- The reference machine knows all arithmetic, -/
theorem arithmeticResult_ok (hKind : ins.kind = .alu) (a b pc : Int) :
    ∃ v, arithmeticResult ins a b pc = .ok v := by
  unfold Instruction.kind at hKind
  unfold arithmeticResult
  cases hMnemonic : ins.mnemonic <;> rw [hMnemonic] at hKind <;>
    first
      | cases hKind; done
      | exact ⟨_, rfl⟩

/-- Where an instruction may go on. -/
inductive Successor (r : Reference) (ins : Instruction) (pc : Int) : Nat → Prop where
  | behind : Successor r ins pc (u32 (pc + 4))
  | near (h : ins.mnemonic.format = .b ∨ ins.mnemonic = .jal) :
    Successor r ins pc (u32 (pc + ins.imm))
  | far (h : ins.mnemonic = .jalr) :
    Successor r ins pc (u32 (r.registers.read ins.rs1 + ins.imm) / 2 * 2)

/-- and all branches. -/
theorem jump_ok (hKind : ins.kind = .branch) (b pc : Int) :
    ∃ e, jump ins (r.registers.read ins.rs1) b pc = .ok e ∧ r.Successor ins pc e.nextPc := by
  unfold Instruction.kind at hKind
  unfold jump
  cases hMnemonic : ins.mnemonic <;> rw [hMnemonic] at hKind <;> try cases hKind; done
  case jal => exact ⟨_, rfl, .near (.inr hMnemonic)⟩
  case jalr =>
    refine ⟨_, rfl, ?_⟩
    dsimp only
    rw [bitAnd_even]
    exact .far hMnemonic
  all_goals
    refine ⟨_, rfl, ?_⟩
    dsimp only
    split
    · exact .near (.inl (by rw [hMnemonic]; rfl))
    · exact .behind

/-- Pooling does not fail if the window starts at a number of 64 bits. -/
theorem pool_ok (hWord : IsWord a) (hFits : ins.slides = true → fits64 r.poolNext = true) :
    ∃ v, (r.pool ins a b).1 = .ok v := by
  have hBase : fits64 (r.poolPlace ins a b).1 = true := by
    unfold poolPlace
    split
    · exact hFits ‹_›
    · have hRange := isWord_iff.mp hWord
      unfold fits64
      simp only [Bool.and_eq_true, decide_eq_true_eq]
      omega
  unfold poolPlace at hBase
  unfold pool
  rcases hPlace : (if ins.slides then (r.poolNext, r.poolPitch) else (a, b)) with ⟨base, pitch⟩
  rw [hPlace] at hBase
  dsimp only at hBase ⊢
  rw [hBase]
  exact ⟨_, rfl⟩

/-- An instruction whose window fits is executed. -/
theorem effect_ok (hFits : ins.kind = .pool → ins.slides = true → fits64 r.poolNext = true)
    (pc : Int) : ∃ e, (r.effect ins pc).1 = .ok e := by
  unfold effect
  dsimp only
  cases hKind : ins.kind with
  | alu =>
      obtain ⟨v, hResult⟩ := arithmeticResult_ok hKind (r.registers.read ins.rs1)
        (r.registers.read ins.rs2) pc
      exact ⟨_, by dsimp only; rw [hResult]; rfl⟩
  | branch =>
      obtain ⟨e, hJump, -⟩ := jump_ok (r := r) hKind (r.registers.read ins.rs2) pc
      exact ⟨e, hJump⟩
  | pool =>
      obtain ⟨v, hResult⟩ :=
        pool_ok (b := r.registers.read ins.rs2) (r.registers.isWord_read ins.rs1) (hFits hKind)
      exact ⟨_, by dsimp only [Prod.map]; rw [hResult]; rfl⟩
  | _ => exact ⟨_, rfl⟩

/-- A check only fails at a window, and it leaves the program as it is. -/
theorem check_fails {c : Commit} {f : Failure} (h : (r.check c).1 = .error f) :
    (Instruction.decode (r.program.fetch c.pc)).kind = .pool := by
  by_contra hNot
  obtain ⟨e, hEffect⟩ := effect_ok (fun hKind => absurd hKind hNot) c.pc
  unfold check execute at h
  dsimp only at h
  rcases hDone : r.effect (Instruction.decode (r.program.fetch c.pc)) c.pc with ⟨result, r'⟩
  rw [hDone] at hEffect h
  obtain rfl : result = .ok e := hEffect
  cases h

theorem check_program (r : Reference) (c : Commit) : (r.check c).2.program = r.program := by
  rw [check_rest]
  exact (congrArg Reference.program (r.execute_rest _ c.pc) :)

/-- Behind an instruction that is executed comes one of its successors. -/
theorem effect_successor {e : Effect} (h : (r.effect ins pc).1 = .ok e) :
    r.Successor ins pc e.nextPc := by
  unfold effect at h
  dsimp only at h
  cases hKind : ins.kind with
  | branch =>
      obtain ⟨e', hJump, hNext⟩ := jump_ok (r := r) hKind (r.registers.read ins.rs2) pc
      rw [hKind] at h
      cases hJump.symm.trans h
      exact hNext
  | alu | pool =>
      rw [hKind] at h
      obtain ⟨v, -, rfl⟩ := map_ok h
      exact .behind
  | _ =>
      rw [hKind] at h
      cases h
      exact .behind

theorem after_program (r : Reference) (n : Nat) : (after n r).program = r.program := by
  induction n generalizing r with
  | zero => rfl
  | succ n ih => exact (ih r.next).trans r.next_program

/-- The next instruction is executed, if its window fits. -/
theorem next_ok (hFits : r.WindowFits) :
    r.record.isSome = true ∧
      ∃ pc, r.next.expectedPc = (pc : Nat) ∧ r.Successor r.instruction r.expectedPc pc := by
  obtain ⟨e, hEffect⟩ := effect_ok hFits r.expectedPc
  have hNext := effect_successor hEffect
  unfold record next execute
  rcases hDone : r.effect r.instruction r.expectedPc with ⟨result, r'⟩
  rw [hDone] at hEffect
  obtain rfl : result = .ok e := hEffect
  exact ⟨rfl, e.nextPc, rfl, hNext⟩

/-- The addresses of instructions have 32 bits. -/
theorem Successor.lt {pc' : Nat} (h : r.Successor ins pc pc') : pc' < 0x100000000 := by
  cases h with
  | behind => exact u32_lt _
  | near => exact u32_lt _
  | far =>
      have hLess := u32_lt (r.registers.read ins.rs1 + ins.imm)
      omega

/-- Execution never leaves these addresses, whether instructions fail or not. -/
theorem after_pc (hPc : 0 ≤ r.expectedPc ∧ r.expectedPc < 0x100000000) (n : Nat) :
    0 ≤ (after n r).expectedPc ∧ (after n r).expectedPc < 0x100000000 := by
  induction n with
  | zero => exact hPc
  | succ n ih =>
      rw [after_succ]
      generalize after n r = r at ih
      unfold next execute
      rcases hDone : r.effect r.instruction r.expectedPc with ⟨result, r'⟩
      cases result with
      | ok e =>
          have hNext := (effect_successor (congrArg Prod.fst hDone)).lt
          dsimp only
          omega
      | error f =>
          have hRest := r.effect_rest r.instruction r.expectedPc
          rw [hDone] at hRest
          have hFrame : r'.expectedPc = r.expectedPc := (congrArg Reference.expectedPc hRest :)
          dsimp only
          rw [hFrame]
          exact ih

/-- A window that is not very far away fits. -/
theorem Near.windowFits {n : Nat} (h : r.Near n)
    (hFar : n * r.poolStride ≤ 0x7fffffff80000000) : r.WindowFits := by
  intro _ _
  have hLow := h.low
  have hHigh := h.high
  unfold fits64
  simp only [Bool.and_eq_true, decide_eq_true_eq]
  omega

/-- Windows that are never very far away fit. -/
theorem Near.windowsFit (h : r.Near 0) {n : Nat} (hFar : n * r.poolStride ≤ 0x7fffffff80000000) :
    r.WindowsFit n := by
  intro i hLess _
  obtain ⟨hNear, hStride⟩ := h.after i
  refine hNear.windowFits ?_
  rw [hStride]
  exact Nat.le_trans (Nat.mul_le_mul_right _ (Nat.le_of_lt hLess)) hFar

end Reference

/-- Sequential execution ends with the instruction behind so many, none of which fails. -/
structure Reference.Finishes (r : Reference) (n : Nat) : Prop where
  runs : r.Runs n
  executed : ∀ i < n, (Reference.after i r).record.isSome = true
  ends : (Reference.after n r).instruction.kind = .system

/-- An instruction in front that does not end the run belongs to it. -/
theorem Reference.Runs.cons {r : Reference} {n : Nat} (h : r.next.Runs n)
    (hKind : Pipeline.ending r.instruction.kind = none) : r.Runs (n + 1) := by
  intro i hLess
  cases i with
  | zero => exact hKind
  | succ i => exact h i (Nat.lt_of_succ_lt_succ hLess)

theorem Reference.Finishes.cons {r : Reference} {n : Nat} (h : r.next.Finishes n)
    (hKind : Pipeline.ending r.instruction.kind = none) (hRecord : r.record.isSome = true) :
    r.Finishes (n + 1) where
  runs := h.runs.cons hKind
  executed i hLess := by
    cases i with
    | zero => exact hRecord
    | succ i => exact h.executed i (Nat.lt_of_succ_lt_succ hLess)
  ends := h.ends

/-- The reference machine before the first word of a program. -/
def Config.atFirst (c : Config) (words : List Nat) (data : List (Int × List Int)) : Reference :=
  { c.reference words.toArray data with expectedPc := 0 }

/-- The reference machine starts with the program. -/
theorem Config.reference_program (c : Config) (program : Image) (data : List (Int × List Int)) :
    (c.reference program data).program = program :=
  congrArg Reference.program ((Reference.fresh c program).loadAll_rest data #[])

/-- Its first window starts in memory. -/
theorem Config.Valid.near_atFirst {c : Config} (h : c.Valid) (words : List Nat)
    (data : List (Int × List Int)) :
    (c.atFirst words data).Near 0 ∧ (c.atFirst words data).poolStride = c.poolStride := by
  obtain ⟨hNear, hStride⟩ := h.near words.toArray data
  exact ⟨{ hNear with }, hStride⟩

/-- As many windows fit as the stride leaves room for. -/
theorem Config.Valid.windowsFit {c : Config} (h : c.Valid) {n : Nat}
    (hFar : n * c.poolStride ≤ 0x7fffffff80000000) (words : List Nat)
    (data : List (Int × List Int)) : (c.atFirst words data).WindowsFit n := by
  obtain ⟨hNear, hStride⟩ := h.near_atFirst words data
  refine hNear.windowsFit ?_
  rwa [hStride]

namespace RunsOff

variable {words : List Nat} (h : RunsOff words)
include h

/-- A successor of a word but the last one is a later word. -/
theorem successor {r : Reference} {place w pc : Nat} (hSmall : words.length ≤ 0x40000000)
    (hWord : words[place]? = some w) (hBefore : place + 1 < words.length)
    (hNext : r.Successor (Instruction.decode w) (4 * place) pc) :
    ∃ later, pc = 4 * later ∧ place < later ∧ later < words.length := by
  have hOnward := h.onward place w hWord
  cases hNext with
  | behind =>
      refine ⟨place + 1, ?_, by omega, hBefore⟩
      unfold u32
      omega
  | near hJumps =>
      obtain ⟨hWhole, hLater, hWithin⟩ := hOnward.near hJumps
      refine ⟨((4 * place + (Instruction.decode w).imm) / 4).toNat, ?_, by omega, by omega⟩
      unfold u32
      omega
  | far hJumps =>
      obtain ⟨hZero, hWhole, hLater, hWithin⟩ := hOnward.far hJumps
      rw [hZero, Registers.read_zero, Int.zero_add]
      refine ⟨((Instruction.decode w).imm / 4).toNat, ?_, by omega, by omega⟩
      unfold u32
      omega

/-- From any word of the program, execution gets to the last one, and it needs no more instructions
than there are words in between. -/
theorem finishes_from {r : Reference} {place : Nat} (hSmall : words.length ≤ 0x40000000)
    (hPlace : place < words.length) (hProgram : r.program = words.toArray)
    (hPc : r.expectedPc = 4 * place) (hFits : r.WindowsFit (words.length - place)) :
    ∃ n < words.length - place, r.Finishes n := by
  induction hLeft : words.length - place using Nat.strongRecOn generalizing r place with
  | _ left ih =>
      subst hLeft
      have hWord : words[place]? = some words[place] := List.getElem?_eq_getElem hPlace
      have hInstruction : r.instruction = Instruction.decode words[place] := by
        unfold Reference.instruction
        rw [hProgram, hPc, Image.fetch_toArray hWord]
      have hClosing := h.closing place _ hWord
      have hOnward := h.onward place _ hWord
      rw [← hInstruction] at hClosing hOnward
      by_cases hLast : place + 1 = words.length
      · exact ⟨0, by omega, nofun, nofun, hClosing.mpr hLast⟩
      · obtain ⟨hRecord, pc, hNext, hSuccessor⟩ :=
          Reference.next_ok (r := r) (hFits 0 (by omega) nofun)
        rw [hInstruction, hPc] at hSuccessor
        obtain ⟨later, rfl, hLater, hWithin⟩ := h.successor hSmall hWord (by omega) hSuccessor
        have hKind : Pipeline.ending r.instruction.kind = none := by
          rcases ending_cases hOnward.legal with hGoesOn | ⟨hSystem, -⟩
          · exact hGoesOn
          · exact absurd (hClosing.mp hSystem) hLast
        obtain ⟨n, hLess, hFinishes⟩ := ih (words.length - later) (by omega) hWithin
          (r.next_program.trans hProgram) (by rw [hNext]; omega)
          (fun i hLess hRuns => hFits (i + 1) (by omega) (hRuns.cons hKind)) rfl
        exact ⟨n + 1, by omega, hFinishes.cons hKind hRecord⟩

/-- From the start, with any data, execution gets to the last word. -/
theorem finishes (c : Config) (hSmall : words.length ≤ 0x40000000) (data : List (Int × List Int))
    (hFits : (c.atFirst words data).WindowsFit words.length) :
    ∃ n < words.length, (c.atFirst words data).Finishes n :=
  h.finishes_from hSmall h.nonempty (c.reference_program words.toArray data) rfl hFits

/-- The last word of a program that is longer than that has no address. -/
theorem endless {c : Config} (hLong : 0x40000000 < words.length) (data : List (Int × List Int))
    (n : Nat) : (Reference.after n (c.atFirst words data)).instruction.kind ≠ .system := by
  have hProgram : (Reference.after n (c.atFirst words data)).program = words.toArray :=
    (Reference.after_program _ n).trans (c.reference_program words.toArray data)
  obtain ⟨hLow, hHigh⟩ := Reference.after_pc (r := c.atFirst words data)
    ⟨show (0 : Int) ≤ 0 by decide, show (0 : Int) < 0x100000000 by decide⟩ n
  generalize Reference.after n (c.atFirst words data) = r at hProgram hLow hHigh
  intro hSystem
  unfold Reference.instruction at hSystem
  rw [hProgram] at hSystem
  unfold Image.fetch at hSystem
  split at hSystem
  · rw [Int.natCast_zero, Instruction.decode_zero] at hSystem
    cases hSystem
  · have hPlace : (r.expectedPc / 4).toNat + 1 < words.length := by omega
    have hWord := List.getElem?_eq_getElem (Nat.lt_of_succ_lt hPlace)
    rw [Array.getD_eq_getD_getElem?, List.getElem?_toArray, hWord] at hSystem
    exact absurd ((h.closing _ _ hWord).mp hSystem) (Nat.ne_of_lt hPlace)

end RunsOff

end AccelPipe

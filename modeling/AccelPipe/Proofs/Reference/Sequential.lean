import AccelPipe.Proofs.Pipeline.Runs
import AccelPipe.Proofs.Reference.Agreement
import AccelPipe.Reference.Check

/-! Sequential execution on the reference machine. It keeps up with the machine that a pipeline
stands for, and finds nothing wrong with its commits. -/
namespace AccelPipe

/-- What is compared of a commit: the address and the word of the instruction, its register result
and its store. -/
def Commit.record (c : Commit) : Int × Nat × Option Int × Option Store :=
  (c.pc, c.ins.word, c.value, c.store)

namespace Reference

variable (r : Reference)

/-- The instruction that comes next. -/
def instruction : Instruction := Instruction.decode (r.program.fetch r.expectedPc)

/-- The reference machine after the next instruction. -/
def next : Reference :=
  match r.execute r.instruction r.expectedPc with
  | (.ok e, r) => { r with expectedPc := e.nextPc, checked := r.checked + 1 }
  | (.error _, r) => r

/-- What a commit of the next instruction has to say, if it can be executed. -/
def record : Option (Int × Nat × Option Int × Option Store) :=
  match (r.execute r.instruction r.expectedPc).1 with
  | .ok e => some (r.expectedPc, r.instruction.word, e.value, e.store)
  | .error _ => none

/-- The reference machine after so many instructions. -/
def after : Nat → Reference → Reference
  | 0, r => r
  | n + 1, r => after n r.next

/-- None of so many instructions ends the run. -/
def Runs (n : Nat) : Prop := ∀ i < n, Pipeline.ending (after i r).instruction.kind = none

/-- The windows of the first instructions of a run have the addresses that they stand for. -/
def Exact (n : Nat) : Prop :=
  ∀ i < n, r.Runs i → (after i r).ExactWindow (after i r).instruction

variable {r}

theorem after_succ (n : Nat) (r : Reference) : after (n + 1) r = (after n r).next := by
  induction n generalizing r with
  | zero => rfl
  | succ n ih => exact ih r.next

/-- The next instruction changes what it executes and goes on where that leads. -/
theorem next_rest (r : Reference) :
    r.next =
      { (r.execute r.instruction r.expectedPc).2 with
        expectedPc := r.next.expectedPc
        checked := r.next.checked } := by
  unfold next
  split <;> rename_i hExecute <;> rw [hExecute]

theorem next_program (r : Reference) : r.next.program = r.program := by
  rw [next_rest, execute_rest]
  rfl

/-- No instruction changes the stride of the windows. -/
theorem next_stride (r : Reference) : r.next.poolStride = r.poolStride := by
  rw [next_rest, execute_rest]
  rfl

theorem Exact.mono {n k : Nat} (h : r.Exact n) (hLess : k ≤ n) : r.Exact k :=
  fun i hBefore => h i (Nat.lt_of_lt_of_le hBefore hLess)

theorem Runs.succ {n : Nat} (h : r.Runs n)
    (hKind : Pipeline.ending (after n r).instruction.kind = none) : r.Runs (n + 1) := by
  intro i hLess
  rcases Nat.lt_succ_iff_lt_or_eq.mp hLess with hBefore | rfl
  · exact h i hBefore
  · exact hKind

theorem wrap_lt (h : 0 < r.memory.size) (addr : Int) : r.wrap addr < r.memory.size := by
  have hLess := Int.emod_lt_of_pos addr (Int.natCast_pos.mpr h)
  have hPositive := Int.emod_nonneg addr (Int.ne_of_gt (Int.natCast_pos.mpr h))
  unfold wrap
  omega

theorem wrap_poke (addr value place : Int) : (r.poke addr value).wrap place = r.wrap place := by
  unfold poke wrap
  dsimp only
  rw [Array.size_setIfInBounds]

/-- A write changes the word at its address, and no other. -/
theorem peek_poke (h : 0 < r.memory.size) (addr value place : Int) :
    (r.poke addr value).peek place =
      if r.wrap place = r.wrap addr then s32 value else r.peek place := by
  have hWithin := wrap_lt h addr
  unfold peek
  rw [wrap_poke]
  unfold poke
  simp only [Array.getD_eq_getD_getElem?, Array.getElem?_setIfInBounds]
  by_cases hSame : r.wrap place = r.wrap addr
  · rw [if_pos hSame.symm, if_pos hSame, if_pos hWithin]
    rfl
  · rw [if_neg (Ne.symm hSame), if_neg hSame]

end Reference

/-- A store leaves the words that the convolution unit keeps as they are, or it makes the unit
forget where they came from. -/
theorem Conv2d.Keeps.snoop {u : Conv2d} {memory memory' : Int → Int} {addr : Int}
    (h : u.Keeps memory)
    (hOther : ∀ place : Int, place % (u.memWords : Int) ≠ addr → memory' place = memory place) :
    (u.snoop addr).Keeps memory' := by
  intro o hOrigin
  unfold Conv2d.snoop at hOrigin ⊢
  cases hKept : u.origin with
  | none =>
      rw [hKept] at hOrigin
      dsimp only at hOrigin
      rw [hKept] at hOrigin
      cases hOrigin
  | some kept =>
      rw [hKept] at hOrigin
      dsimp only at hOrigin ⊢
      split at hOrigin
      · cases hOrigin
      · rename_i hCovered
        rw [if_neg hCovered]
        rw [hKept] at hOrigin
        obtain rfl := Option.some.inj hOrigin
        rw [h kept hKept]
        refine List.map_congr_left fun place hPlace => (hOther place ?_).symm
        rintro rfl
        refine hCovered (List.contains_iff_mem.mpr ?_)
        exact List.mem_map_of_mem hPlace

/-- Every successful step keeps the accelerators. -/
theorem Reference.Mirrors.snoop {r : Reference} {u : Units} (h : r.Mirrors u) (addr : Int) :
    r.Mirrors (u.snoop addr) := by
  have hSnoop : u.snoop addr = u ∨ u.snoop addr = { u with conv2d := u.conv2d.invalidate } := by
    unfold Units.snoop Conv2d.snoop
    split
    · split
      · exact .inr rfl
      · exact .inl rfl
    · exact .inl rfl
  rcases hSnoop with hSame | hSame
  · rw [hSame]
    exact h
  · rw [hSame]
    exact { h with }

/-- An address that has been wrapped around stays where it is. -/
theorem Machine.wrap_wrap {a : Machine} (h : 0 < a.size) (addr : Int) :
    a.wrap (a.wrap addr) = a.wrap addr := by
  have hPositive := Int.emod_nonneg addr (Int.ne_of_gt (Int.natCast_pos.mpr h))
  unfold wrap
  rw [Int.toNat_of_nonneg hPositive, Int.emod_emod]

/-- The store of an instruction, on both machines. -/
theorem Reference.peek_store {r : Reference} {a : Machine} (hSize : r.memory.size = a.size)
    (hWords : r.peek = a.memory) (hSound : a.Sound) {s : Store} (hStore : a.store = some s) :
    (r.poke s.addr s.value).peek = a.next.memory := by
  have hKind : a.instruction.kind = .store := by
    apply Decidable.byContradiction
    intro hOther
    rw [Machine.store_of_not_store hOther] at hStore
    cases hStore
  obtain ⟨addr, value, -, -, hIs⟩ := Machine.store_of_store hSound hKind
  obtain rfl : (⟨a.wrap addr, s32 value⟩ : Store) = s := Option.some.inj (hIs.symm.trans hStore)
  have hWrap : ∀ place, r.wrap place = a.wrap place := by
    intro place
    unfold Reference.wrap Machine.wrap
    rw [hSize]
  have hSome : 0 < r.memory.size := by
    rw [hSize]
    exact hSound.size
  rw [Machine.next_memory_of_store hStore]
  funext place
  rw [peek_poke hSome, hWrap, hWrap, hWords, Machine.wrap_wrap hSound.size, isWord_s32 value]
  simp only [Int.ofNat_inj]

namespace Effected

variable {r r' : Reference} {a : Machine} {e : Effect}

/-- An instruction does not change the size of memory. -/
theorem size (h : Effected r a e r') (hAgrees : Agrees r a) : r'.memory.size = a.size := by
  rw [h.memory, hAgrees.size]

theorem peek (h : Effected r a e r') : r'.peek = r.peek := by
  unfold Reference.peek Reference.wrap
  rw [h.memory]

/-- Writing a register result changes registers only. -/
theorem writeBack_eq (h : Effected r a e r') (hRegisters : r.registers = a.registers)
    (mine : Reference) (hMine : mine.registers = r.registers) :
    mine.writeBack a.instruction e.value = { mine with registers := a.next.registers } := by
  rw [h.value]
  unfold Reference.writeBack Machine.next
  cases hValue : a.commit.value with
  | none =>
      dsimp only
      rw [← hRegisters, ← hMine]
  | some v =>
      have hWrites : a.instruction.writesRd = true := by
        cases hIs : a.instruction.writesRd with
        | true => rfl
        | false =>
            unfold Machine.commit at hValue
            rw [hIs] at hValue
            cases hValue
      have hRd : a.commit.rd = a.instruction.rd := by
        unfold Machine.commit
        exact if_pos hWrites
      dsimp only
      rw [if_pos hWrites, hRd, hMine, hRegisters]

/-- What an instruction writes. -/
theorem apply (h : Effected r a e r') (hAgrees : Agrees r a) (hSound : a.Sound) :
    Agrees (r'.apply a.instruction e) a.next := by
  have hProgram : r'.program = a.next.program := by
    rw [h.program, hAgrees.program, Machine.next_program]
  have hSize : r'.memory.size = a.next.size := by rw [h.size hAgrees, Machine.next_size]
  unfold Reference.apply
  by_cases hKind : a.instruction.kind = .store
  · obtain ⟨addr, value, -, -, hStore⟩ := Machine.store_of_store hSound hKind
    have hWords :=
      Reference.peek_store (h.size hAgrees) (h.peek.trans hAgrees.words) hSound hStore
    have hUnits : a.next.units = a.performed.2.snoop (a.wrap addr) := by
      unfold Machine.next
      simp only [hStore]
    have hMemWords : a.performed.2.conv2d.memWords = a.size := by
      have hFrame := congrArg (·.conv2d.memWords) (Machine.performed_frame hSound)
      exact hFrame.trans hSound.memWords
    have hMirrors := h.mirrors.snoop (a.wrap addr)
    rw [h.store, hStore]
    dsimp only
    rw [h.writeBack_eq hAgrees.registers (r'.poke (a.wrap addr) (s32 value)) h.registers]
    refine ⟨hProgram, rfl, ?_, hWords, ?_, ?_⟩
    · change (r'.memory.setIfInBounds _ _).size = _
      rw [Array.size_setIfInBounds, hSize]
    · rw [hUnits]
      exact { hMirrors with }
    · rw [hUnits, Machine.next_memory_of_store hStore]
      refine h.keeps.snoop fun place hOther => if_neg fun hSame => hOther ?_
      have hPositive := Int.emod_nonneg place (Int.ne_of_gt (Int.natCast_pos.mpr hSound.size))
      rw [hMemWords, ← Int.toNat_of_nonneg hPositive]
      exact hSame
  · have hStore := Machine.store_of_not_store hKind
    have hUnits : a.next.units = a.performed.2 := by
      unfold Machine.next
      simp only [hStore]
    rw [h.store, hStore, h.writeBack_eq hAgrees.registers r' h.registers]
    refine ⟨hProgram, rfl, hSize, ?_, ?_, ?_⟩
    · rw [Machine.next_memory_of_not_store hKind, ← hAgrees.words, ← h.peek]
      rfl
    · rw [hUnits]
      exact { h.mirrors with }
    · rw [hUnits, Machine.next_memory_of_not_store hKind]
      exact h.keeps

end Effected

/-- The instruction of the machine, on both machines. -/
theorem Agrees.execute {r : Reference} {a : Machine} (h : Agrees r a) (hSound : a.Sound)
    (hExact : r.ExactWindow a.instruction) :
    ∃ e r', r.execute a.instruction a.pc = (.ok e, r') ∧ Agrees r' a.next ∧
      e.value = a.commit.value ∧ e.store = a.store ∧
      e.nextPc =
        if a.performed.1.taken then a.performed.1.target.getD 0 else u32 (a.pc + 4) := by
  obtain ⟨e, r', hEffect, hEffected⟩ := h.effect hSound hExact
  refine ⟨e, r'.apply a.instruction e, ?_, hEffected.apply h hSound, hEffected.value,
    hEffected.store, hEffected.nextPc⟩
  unfold Reference.execute
  rw [hEffect]

/-- A reference machine and a machine are about to execute the same instruction in the same state.
The program is one that 32-bit addresses reach. -/
structure InStep (r : Reference) (a : Machine) : Prop extends Agrees r a where
  pc : r.expectedPc = a.pc
  sound : a.Sound
  small : a.program.size < 0x40000000

/-- An instruction that is not illegal lies in the program, so that the address behind it is a
32-bit number. -/
theorem Machine.pc_range {a : Machine} (hSize : a.program.size < 0x40000000)
    (hLegal : a.instruction.kind ≠ .illegal) : 0 ≤ a.pc ∧ a.pc + 4 < 0x100000000 := by
  have hFetched : a.program.fetch a.pc ≠ 0 := by
    intro hZero
    unfold instruction at hLegal
    rw [hZero] at hLegal
    exact hLegal Instruction.decode_zero
  unfold Image.fetch at hFetched
  split at hFetched
  · exact absurd rfl hFetched
  · rename_i hPlace
    have hWithin : (a.pc / 4).toNat < a.program.size := by
      apply Nat.lt_of_not_le
      intro hBeyond
      rw [Array.getD_eq_getD_getElem?, Array.getElem?_eq_none hBeyond] at hFetched
      exact hFetched rfl
    omega

namespace InStep

variable {r : Reference} {a : Machine}

/-- Machines in step are at the same instruction. -/
theorem instruction_eq (h : InStep r a) : r.instruction = a.instruction := by
  unfold Reference.instruction Machine.instruction
  rw [h.program, h.pc]

/-- One instruction on both machines. -/
theorem execute (h : InStep r a) (hExact : r.ExactWindow r.instruction) :
    ∃ e r', r.execute a.instruction a.pc = (.ok e, r') ∧ Agrees r' a.next ∧
      e.value = a.commit.value ∧ e.store = a.store ∧
      e.nextPc =
        if a.performed.1.taken then a.performed.1.target.getD 0 else u32 (a.pc + 4) :=
  h.toAgrees.execute h.sound (h.instruction_eq ▸ hExact)

/-- The reference machine keeps up. -/
theorem next (h : InStep r a) (hExact : r.ExactWindow r.instruction) :
    Agrees r.next a.next ∧ r.record = some a.commit.record ∧
      r.next.expectedPc =
        ((if a.performed.1.taken then a.performed.1.target.getD 0 else u32 (a.pc + 4) : Nat) :
          Int) := by
  obtain ⟨e, r', hExecute, hAgrees, hValue, hStore, hNext⟩ := h.execute hExact
  unfold Reference.next Reference.record
  rw [h.instruction_eq, h.pc, hExecute]
  refine ⟨⟨hAgrees.program, hAgrees.registers, hAgrees.size, hAgrees.words,
    { hAgrees.mirrors with }, hAgrees.keeps⟩, ?_, congrArg Nat.cast hNext⟩
  dsimp only
  rw [hValue, hStore]
  rfl

/-- It finds nothing wrong with a commit of the machine. -/
theorem check (h : InStep r a) (hExact : r.ExactWindow r.instruction) {c : Commit}
    (hCommit : c.timeless = a.commit) : r.check c = (.ok [], r.next) := by
  have hCommitPc : c.pc = a.pc := congrArg Commit.pc hCommit
  have hIns : c.ins = a.instruction := congrArg Commit.ins hCommit
  have hCommitValue : c.timeless.value = a.commit.value := congrArg Commit.value hCommit
  have hCommitStore : c.timeless.store = a.store := congrArg Commit.store hCommit
  change c.value = _ at hCommitValue
  change c.store = _ at hCommitStore
  have hDecode : Instruction.decode (r.program.fetch c.pc) = a.instruction := by
    rw [h.program, hCommitPc]
    rfl
  obtain ⟨e, r', hExecute, -, hValue, hStore, -⟩ := h.execute hExact
  have hNone : Reference.mismatchesOf a.pc c a.instruction e = [] := by
    have hDiffers : (a.instruction.writesRd && a.instruction.rd != 0 &&
        Reference.differs c.value e.value) = false := by
      rw [hValue, hCommitValue]
      cases hWrites : a.instruction.writesRd with
      | false => rfl
      | true =>
          obtain ⟨v, hFinished⟩ := Machine.finished_written h.sound hWrites
          have hIs : a.commit.value = some v := by
            unfold Machine.commit
            dsimp only
            rw [if_pos hWrites, hFinished]
          have hWord : s32 v = v := Machine.finished_result h.sound hFinished
          have hEqual : Reference.differs (some v) (some v) = false := by
            unfold Reference.differs
            dsimp only
            rw [hWord]
            exact bne_self_eq_false (some v)
          rw [hIs, hEqual, Bool.and_false]
    unfold Reference.mismatchesOf
    rw [hDiffers, hIns, hCommitPc, hStore, hCommitStore]
    simp [Reference.when]
  unfold Reference.check Reference.next
  dsimp only
  rw [hDecode, h.instruction_eq, hCommitPc, h.pc, hExecute]
  dsimp only
  rw [hNone]
  rfl

/-- Both machines go on at the same address. -/
theorem step (h : InStep r a) (hExact : r.ExactWindow r.instruction)
    (hLegal : a.instruction.kind ≠ .illegal) : InStep r.next a.next := by
  obtain ⟨hAgrees, -, hNext⟩ := h.next hExact
  refine ⟨hAgrees, ?_, h.sound.next, ?_⟩
  · rw [hNext, Machine.next_pc]
    split
    · rfl
    · have hRange := Machine.pc_range h.small hLegal
      unfold u32
      omega
  · rw [Machine.next_program]
    exact h.small

/-- An illegal instruction has no effect. -/
theorem idle (h : InStep r a) (hKind : a.instruction.kind = .illegal) : Agrees r a.next := by
  have hExact : r.ExactWindow r.instruction := by
    intro hPool
    rw [h.instruction_eq, hKind] at hPool
    cases hPool
  have hNext : r.next = { r with expectedPc := u32 (r.expectedPc + 4), checked := r.checked + 1 } := by
    unfold Reference.next Reference.execute Reference.effect
    rw [h.instruction_eq, hKind]
    rfl
  have hAgrees := (h.next hExact).1
  rw [hNext] at hAgrees
  exact ⟨hAgrees.program, hAgrees.registers, hAgrees.size, hAgrees.words,
    { hAgrees.mirrors with }, hAgrees.keeps⟩

/-- The machines stay in step for as long as the machine does not end. -/
theorem after (h : InStep r a) {n : Nat} (hExact : r.Exact n) (hRuns : a.Runs n) :
    InStep (Reference.after n r) (Machine.after n a) ∧ r.Runs n := by
  induction n with
  | zero => exact ⟨h, nofun⟩
  | succ n ih =>
      obtain ⟨hStep, hBefore⟩ := ih (hExact.mono (Nat.le_succ n)) (hRuns.mono (Nat.le_succ n))
      have hGoesOn := hRuns n (Nat.lt_succ_self n)
      have hLegal : (Machine.after n a).instruction.kind ≠ .illegal := by
        intro hKind
        rw [hKind] at hGoesOn
        cases hGoesOn
      rw [Reference.after_succ, Machine.after_succ]
      refine ⟨hStep.step (hExact n (Nat.lt_succ_self n) hBefore) hLegal, hBefore.succ ?_⟩
      rw [hStep.instruction_eq]
      exact hGoesOn

/-- The next instruction after some has an exact window, too, if one more has. -/
theorem at_after (h : InStep r a) {n : Nat} (hExact : r.Exact (n + 1)) (hRuns : a.Runs n) :
    InStep (Reference.after n r) (Machine.after n a) ∧
      (Reference.after n r).ExactWindow (Reference.after n r).instruction := by
  obtain ⟨hStep, hBefore⟩ := h.after (hExact.mono (Nat.le_succ n)) hRuns
  exact ⟨hStep, hExact n (Nat.lt_succ_self n) hBefore⟩

/-- The machine does not end before the reference machine does. -/
theorem runs (h : InStep r a) {n : Nat} (hExact : r.Exact n) (hRuns : r.Runs n) : a.Runs n := by
  induction n with
  | zero => exact nofun
  | succ n ih =>
      have hShorter := hExact.mono (Nat.le_succ n)
      have hBefore := ih hShorter fun i hLess => hRuns i (Nat.lt_succ_of_lt hLess)
      refine hBefore.succ ?_
      rw [← (h.after hShorter hBefore).1.instruction_eq]
      exact hRuns n (Nat.lt_succ_self n)

end InStep

end AccelPipe

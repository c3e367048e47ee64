import AccelPipe.Proofs.Reference.Exact

/-! What the verdict of the reference machine is worth. Commits from anywhere are checked one after
the other, and nothing is found wrong with them if and only if they are the steps of sequential
execution. The reference machine follows the commits and not its own way, but a commit that is
lost, repeated, out of place or made up is noticed where it happens. -/
namespace AccelPipe

namespace Machine

variable (a : Machine)

/-- The machine after one instruction of sequential execution, where the addresses of instructions
are 32-bit numbers. -/
def step : Machine :=
  { a.next with
    pc := ((if a.performed.1.taken then a.performed.1.target.getD 0 else u32 (a.pc + 4) : Nat) :
      Int) }

/-- The machine about to execute the instruction at another address. -/
def sent (pc : Int) : Machine := { a with pc }

variable {a}

theorem Sound.step (h : a.Sound) : a.step.Sound :=
  { h.next with }

theorem Sound.sent (h : a.Sound) (pc : Int) : (a.sent pc).Sound :=
  { h with }

end Machine

/-- A commit says what the next instruction of the machine does: the address and the word of the
instruction, its store and, modulo 2 ^ 32, its register result. -/
structure Commit.Tells (c : Commit) (a : Machine) : Prop where
  pc : c.pc = a.pc
  word : c.ins.word = a.instruction.word
  value : a.instruction.writesRd = true → a.instruction.rd ≠ 0 →
    c.value.map u32 = a.commit.value.map u32
  store : c.store = a.store

namespace Reference

variable {r r' : Reference} {a : Machine}

/-- Words are compared by their low 32 bits. -/
theorem s32_eq_iff {v w : Int} (hWord : IsWord w) : s32 v = w ↔ u32 v = u32 w := by
  constructor
  · intro hEq
    rw [← hEq, u32_s32]
  · intro hEq
    rw [← s32_u32 v, hEq, s32_u32, hWord]

/-- A register result is not told from another one with the same low 32 bits. -/
theorem differs_eq_false_iff {committed : Option Int} {w : Int} (hWord : IsWord w) :
    differs committed (some w) = false ↔ committed.map u32 = some (u32 w) := by
  cases committed with
  | none => simp [differs]
  | some v => simp [differs, s32_eq_iff hWord]

/-- Nothing is found wrong with a commit that says where and what an instruction is, and what it
does. -/
theorem mismatchesOf_eq_nil_iff {expectedPc : Int} {c : Commit} {ins : Instruction} {e : Effect} :
    mismatchesOf expectedPc c ins e = [] ↔
      c.pc = expectedPc ∧ c.ins.word = ins.word ∧
        (ins.writesRd = true → ins.rd ≠ 0 → differs c.value e.value = false) ∧
        c.store = e.store := by
  have hSides : ∀ {α : Type} [BEq α] [LawfulBEq α] (x y : α) (m : Mismatch),
      when (x != y) m = [] ↔ x = y := by
    intro α _ _ x y m
    simp [when]
  unfold mismatchesOf
  rw [List.append_eq_nil_iff, List.append_eq_nil_iff, List.append_eq_nil_iff, hSides, hSides,
    hSides, and_assoc, and_assoc, @eq_comm _ ins.word, @eq_comm _ e.store]
  simp [when]

end Reference

/-- An instruction with a register result has a word for it. -/
theorem Machine.commit_written {a : Machine} (h : a.Sound) (hWrites : a.instruction.writesRd = true) :
    ∃ w, a.commit.value = some w ∧ IsWord w := by
  obtain ⟨w, hFinished⟩ := finished_written h hWrites
  refine ⟨w, ?_, finished_result h hFinished⟩
  unfold commit
  dsimp only
  rw [if_pos hWrites, hFinished]

namespace Agrees

variable {r : Reference} {a : Machine}

/-- The state does not depend on where execution goes on. -/
theorem sent (h : Agrees r a) (pc : Int) : Agrees r (a.sent pc) :=
  { h with }

/-- One check. It executes the instruction that lies where the commit says, whatever was expected,
and finds nothing wrong if this is where execution goes on and the commit tells the instruction. -/
theorem check (h : Agrees r a) (hSound : a.Sound) {c : Commit}
    (hExact : r.ExactWindow (Instruction.decode (r.program.fetch c.pc))) :
    ∃ messages r', r.check c = (.ok messages, r') ∧ Agrees r' (a.sent c.pc).step ∧
      r'.expectedPc = (a.sent c.pc).step.pc ∧
      (messages = [] ↔ c.pc = r.expectedPc ∧ c.Tells (a.sent c.pc)) ∧
      r'.checked = r.checked + 1 ∧ r'.mismatches = r.mismatches + messages.length := by
  have hThere := h.sent c.pc
  have hSoundThere := hSound.sent c.pc
  have hDecode : Instruction.decode (r.program.fetch c.pc) = (a.sent c.pc).instruction := by
    rw [h.program]
    rfl
  rw [hDecode] at hExact
  obtain ⟨e, r', hExecute, hAgrees, hValue, hStore, hNext⟩ := hThere.execute hSoundThere hExact
  change r.execute _ c.pc = _ at hExecute
  have hRest := r.execute_rest (a.sent c.pc).instruction c.pc
  rw [hExecute] at hRest
  have hChecked : r'.checked = r.checked := (congrArg Reference.checked hRest :)
  have hCounted : r'.mismatches = r.mismatches := (congrArg Reference.mismatches hRest :)
  have hCheck : r.check c =
      (.ok (Reference.mismatchesOf r.expectedPc c (a.sent c.pc).instruction e),
        { r' with
          expectedPc := e.nextPc
          checked := r'.checked + 1
          mismatches := r'.mismatches +
            (Reference.mismatchesOf r.expectedPc c (a.sent c.pc).instruction e).length }) := by
    unfold Reference.check
    dsimp only
    rw [hDecode, hExecute]
  refine ⟨_, _, hCheck, ⟨hAgrees.program, hAgrees.registers, hAgrees.size, hAgrees.words,
    { hAgrees.mirrors with }, hAgrees.keeps⟩, congrArg Nat.cast hNext, ?_,
    congrArg (· + 1) hChecked, congrArg (· + _) hCounted⟩
  rw [Reference.mismatchesOf_eq_nil_iff, hValue, hStore]
  constructor
  · rintro ⟨hPc, hWord, hSame, hStored⟩
    refine ⟨hPc, rfl, hWord, ?_, hStored⟩
    intro hWrites hRd
    obtain ⟨w, hWritten, hIs⟩ := Machine.commit_written hSoundThere hWrites
    have hEqual := hSame hWrites hRd
    rw [hWritten] at hEqual ⊢
    exact (Reference.differs_eq_false_iff hIs).mp hEqual
  · rintro ⟨hPc, hTells⟩
    refine ⟨hPc, hTells.word, ?_, hTells.store⟩
    intro hWrites hRd
    obtain ⟨w, hWritten, hIs⟩ := Machine.commit_written hSoundThere hWrites
    have hEqual := hTells.value hWrites hRd
    rw [hWritten] at hEqual ⊢
    exact (Reference.differs_eq_false_iff hIs).mpr hEqual

end Agrees

namespace Reference

variable {r : Reference} {n : Nat}

/-- A check takes the next window one stride on at most. -/
theorem Near.check (h : r.Near n) (c : Commit) : (r.check c).2.Near (n + 1) := by
  have hDone := h.execute (Instruction.decode (r.program.fetch c.pc)) c.pc
  rw [check_rest]
  exact { hDone with }

end Reference

end AccelPipe

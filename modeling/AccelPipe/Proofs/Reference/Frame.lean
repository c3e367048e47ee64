import AccelPipe.Reference.Check

/-! What the execution of an instruction leaves alone. An accelerator changes its own state and
nothing else, and what an instruction writes is in the registers and in memory. -/
namespace AccelPipe.Reference

/-- The machine with the accelerator state of another one. -/
def withUnits (r other : Reference) : Reference :=
  { r with
    kernel := other.kernel
    coefficients := other.coefficients
    samples := other.samples
    macAcc := other.macAcc
    poolNext := other.poolNext
    poolPitch := other.poolPitch }

/-- The machine with the registers and the memory of another one. -/
def withData (r other : Reference) : Reference :=
  { r with registers := other.registers, memory := other.memory }

variable (r : Reference) (ins : Instruction) (a b pc : Int)

theorem convolve_rest :
    (r.convolve ins a b).2 = { r with kernel := (r.convolve ins a b).2.kernel } := by
  unfold convolve
  split <;> rfl

theorem filter_rest :
    (r.filter ins a).2 =
      { r with
        coefficients := (r.filter ins a).2.coefficients
        samples := (r.filter ins a).2.samples } := by
  unfold filter
  dsimp only
  split <;> rfl

theorem pool_rest :
    (r.pool ins a b).2 =
      { r with
        poolNext := (r.pool ins a b).2.poolNext
        poolPitch := (r.pool ins a b).2.poolPitch } := by
  unfold pool
  dsimp only
  split <;> split <;> rfl

/-- Before it writes its results, an instruction changes the state of the accelerators only. -/
theorem effect_rest : (r.effect ins pc).2 = r.withUnits (r.effect ins pc).2 := by
  unfold effect
  dsimp only
  cases ins.kind with
  | conv2d =>
      dsimp only [Prod.map_snd, id]
      rw [convolve_rest]
      rfl
  | fir =>
      dsimp only [Prod.map_snd, id]
      rw [filter_rest]
      rfl
  | pool =>
      dsimp only [Prod.map_snd, id]
      rw [pool_rest]
      rfl
  | _ => rfl

theorem apply_rest (e : Effect) : r.apply ins e = r.withData (r.apply ins e) := by
  unfold apply writeBack
  dsimp only
  cases e.store <;> cases e.value <;> dsimp only <;> first
    | rfl
    | split <;> rfl

/-- An instruction changes the state of the accelerators, registers and memory. -/
theorem execute_rest :
    (r.execute ins pc).2 = (r.withUnits (r.execute ins pc).2).withData (r.execute ins pc).2 := by
  have hEffect := r.effect_rest ins pc
  unfold execute
  rcases hDone : r.effect ins pc with ⟨result, r'⟩
  rw [hDone] at hEffect
  cases result with
  | error f =>
      rw [hEffect]
      rfl
  | ok e =>
      dsimp only at hEffect ⊢
      rw [r'.apply_rest ins e, hEffect]
      rfl

/-- A check notes what it has found and where execution goes on, and executes the instruction. -/
theorem check_rest (c : Commit) :
    (r.check c).2 =
      { (r.execute (Instruction.decode (r.program.fetch c.pc)) c.pc).2 with
        expectedPc := (r.check c).2.expectedPc
        checked := (r.check c).2.checked
        mismatches := (r.check c).2.mismatches } := by
  unfold check
  dsimp only
  split <;> rename_i hExecute <;> rw [hExecute]

end AccelPipe.Reference

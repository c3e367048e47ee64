import AccelPipe.Proofs.Reference.Accelerators
import AccelPipe.Proofs.Reference.Arithmetic
import AccelPipe.Proofs.Reference.Frame

/-! One instruction on the reference machine and on the machine that a pipeline stands for: it has
the same result, the same store and the same successor, and leaves the same state. -/
namespace AccelPipe

/-- All other kinds write a register. -/
theorem Instruction.writesRd_of_kind {ins : Instruction} (hStore : ins.kind ≠ .store)
    (hBranch : ins.kind ≠ .branch) (hSystem : ins.kind ≠ .system) (hIllegal : ins.kind ≠ .illegal) :
    ins.writesRd = true := by
  unfold kind at hStore hBranch hSystem hIllegal
  unfold writesRd
  cases hMnemonic : ins.mnemonic <;> rw [hMnemonic] at hStore hBranch hSystem hIllegal <;>
    first
      | rfl
      | exact absurd rfl hStore
      | exact absurd rfl hBranch
      | exact absurd rfl hSystem
      | exact absurd rfl hIllegal

namespace Machine

variable {a : Machine}

/-- The operands of an instruction are the registers that it names. -/
theorem value_operands {o : Operand} {reg : Nat} (h : (o, reg) ∈ a.instruction.sources) :
    a.operands.value o = a.registers.read reg := by
  unfold OperandMap.value operands
  rw [Registers.get?_operands, lookup_of_mem a.instruction.sources_nodup h]
  rfl

/-- The operands of the machine are its registers. -/
theorem needed_operands {o : Operand} {reg : Nat} (h : (o, reg) ∈ a.instruction.sources) :
    Pipeline.needed a.operands o = .ok (a.registers.read reg) := by
  unfold Pipeline.needed operands
  rw [Registers.get?_operands, lookup_of_mem a.instruction.sources_nodup h]
  rfl

/-! What the instructions of each kind do. -/

/-- What the machine performs for arithmetic is its result, -/
theorem performed_alu {v : Int} (hKind : a.instruction.kind = .alu)
    (hAlu : a.instruction.alu a.operands a.pc = .ok v) :
    a.performed = ({ result := some v }, a.units) := performed_of_perform (perform_alu hKind hAlu)

/-- for a branch its target and the address behind it, -/
theorem performed_branch {taken : Bool} {target : Nat} (hKind : a.instruction.kind = .branch)
    (hBranch : a.instruction.branch a.operands a.pc = .ok (taken, target)) :
    a.performed =
      (⟨if a.instruction.writesRd then some (s32 (a.pc + 4)) else none, none, none, taken,
        some target, false⟩, a.units) := performed_of_perform (perform_branch hKind hBranch)

/-- for a load its address, -/
theorem performed_load (hKind : a.instruction.kind = .load) :
    a.performed =
      ({ memAddr := some (a.registers.read a.instruction.rs1 + a.instruction.imm) }, a.units) :=
  performed_of_perform
    (perform_load hKind (needed_operands (Instruction.rs1_mem_sources (.inl hKind))))

/-- for a store its address and its value, -/
theorem performed_store (hKind : a.instruction.kind = .store) :
    a.performed =
      ({ memAddr := some (a.registers.read a.instruction.rs1 + a.instruction.imm)
         storeValue := some (a.registers.read a.instruction.rs2) }, a.units) :=
  performed_of_perform
    (perform_store hKind (needed_operands (Instruction.rs1_mem_sources (.inr hKind)))
      (needed_operands (Instruction.rs2_mem_sources hKind)))

/-- and for an accelerator what its unit makes of the words in memory. -/
theorem performed_accelerator (h : a.Sound) {acc : Accelerator}
    (hKind : a.instruction.kind = acc.kind) :
    ∃ result, (a.units.execute acc a.instruction a.operands
        ((a.units.reads acc a.instruction a.operands).map a.memory)).1 = .ok result ∧
      IsWord result.value ∧
      a.performed = ({ result := some result.value, saturated := result.saturated },
        (a.units.execute acc a.instruction a.operands
          ((a.units.reads acc a.instruction a.operands).map a.memory)).2) := by
  obtain ⟨result, hResult, hPerform, hWord⟩ :=
    perform_accelerator h.fit hKind a.memory a.operands a.pc
  exact ⟨result, hResult, hWord, performed_of_perform hPerform⟩

/-- The register result of an instruction that is found out in Execute. -/
theorem commit_value (hKind : a.instruction.kind ≠ .load) :
    a.commit.value = if a.instruction.writesRd then a.performed.1.result else none := by
  unfold commit
  rw [finished_of_not_load hKind]

end Machine

/-- A reference machine and a machine have the same state. Where they go on is another matter. -/
structure Agrees (r : Reference) (a : Machine) : Prop where
  program : r.program = a.program
  registers : r.registers = a.registers
  size : r.memory.size = a.size
  words : r.peek = a.memory
  mirrors : r.Mirrors a.units
  keeps : a.units.conv2d.Keeps a.memory

/-- What the reference machine makes of an instruction of the machine, before it writes anything. -/
structure Effected (r : Reference) (a : Machine) (e : Effect) (r' : Reference) : Prop where
  value : e.value = a.commit.value
  store : e.store = a.store
  nextPc : e.nextPc = if a.performed.1.taken then a.performed.1.target.getD 0 else u32 (a.pc + 4)
  mirrors : r'.Mirrors a.performed.2
  keeps : a.performed.2.conv2d.Keeps a.memory
  program : r'.program = r.program
  registers : r'.registers = r.registers
  memory : r'.memory = r.memory

namespace Agrees

variable {r : Reference} {a : Machine}

/-- Both machines wrap addresses alike. -/
theorem wrap (h : Agrees r a) (addr : Int) : r.wrap addr = a.wrap addr := by
  unfold Reference.wrap Machine.wrap
  rw [h.size]

/-- They have the same operands, wherever the instruction reads them. -/
theorem first (h : Agrees r a) (hNames : (Operand.rs1, a.instruction.rs1) ∈ a.instruction.sources) :
    a.operands.value .rs1 = r.registers.read a.instruction.rs1 := by
  rw [Machine.value_operands hNames, h.registers]

theorem second (h : Agrees r a) (hNames : (Operand.rs2, a.instruction.rs2) ∈ a.instruction.sources) :
    a.operands.value .rs2 = r.registers.read a.instruction.rs2 := by
  rw [Machine.value_operands hNames, h.registers]

/-- An accelerator instruction has the result of its unit. -/
theorem effected_accelerator (hSound : a.Sound) (acc : Accelerator)
    (hKind : a.instruction.kind = acc.kind) {v : Int} {r' : Reference}
    (hMatches : Reference.Matches (v, r') (a.units.execute acc a.instruction a.operands
      ((a.units.reads acc a.instruction a.operands).map a.memory)))
    (hKeeps : (a.units.execute acc a.instruction a.operands
      ((a.units.reads acc a.instruction a.operands).map a.memory)).2.conv2d.Keeps a.memory)
    (hRest : r' = r.withUnits r') :
    Effected r a ⟨some (s32 v), none, u32 (a.pc + 4)⟩ r' := by
  obtain ⟨result, hResult, hWord, hPerformed⟩ := Machine.performed_accelerator hSound hKind
  obtain ⟨saturated, hValue⟩ := hMatches.value
  obtain rfl : (⟨v, saturated⟩ : UnitResult) = result :=
    Except.ok.inj (hValue.symm.trans hResult)
  have hOther : a.instruction.kind ≠ .load ∧ a.instruction.kind ≠ .store ∧
      a.instruction.kind ≠ .branch ∧ a.instruction.kind ≠ .system ∧
      a.instruction.kind ≠ .illegal := by
    rw [hKind]
    cases acc <;> exact ⟨nofun, nofun, nofun, nofun, nofun⟩
  obtain ⟨hLoad, hStore, hBranch, hSystem, hIllegal⟩ := hOther
  have hWrites := Instruction.writesRd_of_kind hStore hBranch hSystem hIllegal
  refine ⟨?_, ?_, ?_, ?_, ?_, (congrArg Reference.program hRest :),
    (congrArg Reference.registers hRest :), (congrArg Reference.memory hRest :)⟩
  · rw [Machine.commit_value hLoad, if_pos hWrites, hPerformed]
    exact congrArg some hWord
  · exact (Machine.store_of_not_store hStore).symm
  · rw [hPerformed]
    rfl
  · rw [hPerformed]
    exact hMatches.mirrors
  · rw [hPerformed]
    exact hKeeps

/-- An instruction that leaves the accelerators alone changes nothing before it is written. -/
theorem effected_plain (h : Agrees r a) {e : Effect} (hUnits : a.performed.2 = a.units)
    (hValue : e.value = a.commit.value) (hStore : e.store = a.store)
    (hNext : e.nextPc =
      if a.performed.1.taken then a.performed.1.target.getD 0 else u32 (a.pc + 4)) :
    Effected r a e r := by
  refine ⟨hValue, hStore, hNext, ?_, ?_, rfl, rfl, rfl⟩
  · rw [hUnits]
    exact h.mirrors
  · rw [hUnits]
    exact h.keeps

/-! What the reference machine makes of the instructions of each kind. -/

/-- Arithmetic has the same effect on both machines, -/
theorem effect_alu (h : Agrees r a) (hKind : a.instruction.kind = .alu) :
    ∃ e r', r.effect a.instruction a.pc = (.ok e, r') ∧ Effected r a e r' := by
  obtain ⟨v, hAlu, -⟩ := Instruction.alu_ok hKind a.operands a.pc
  have hPerformed := Machine.performed_alu hKind hAlu
  obtain ⟨n, hResult, hCut⟩ := Reference.arithmeticResult_eq hKind
    (r.registers.isWord_read a.instruction.rs1) (r.registers.isWord_read a.instruction.rs2)
    (Instruction.isWord_imm_decode _) hAlu h.first h.second
  have hWrites : a.instruction.writesRd = true := by
    apply Instruction.writesRd_of_kind <;> rw [hKind] <;> nofun
  unfold Reference.effect
  simp only [hKind]
  rw [hResult]
  refine ⟨_, _, rfl, h.effected_plain (by rw [hPerformed]) ?_ ?_ ?_⟩
  · rw [Machine.commit_value (by rw [hKind]; nofun), hPerformed, if_pos hWrites]
    exact congrArg some hCut
  · exact (Machine.store_of_not_store (by rw [hKind]; nofun)).symm
  · rw [hPerformed]
    rfl

/-- and so has a load, -/
theorem effect_load (h : Agrees r a) (hSound : a.Sound) (hKind : a.instruction.kind = .load) :
    ∃ e r', r.effect a.instruction a.pc = (.ok e, r') ∧ Effected r a e r' := by
  have hPerformed := Machine.performed_load hKind
  obtain ⟨addr, hAddr, hFinished⟩ := Machine.finished_of_load hSound hKind
  rw [hPerformed] at hAddr
  obtain rfl := Option.some.inj hAddr
  unfold Reference.effect
  simp only [hKind]
  refine ⟨_, _, rfl, h.effected_plain (by rw [hPerformed]) ?_ ?_ ?_⟩
  · unfold Machine.commit
    dsimp only
    rw [Instruction.writesRd_of_load hKind, if_pos rfl, hFinished, h.words, h.registers]
    exact congrArg some (hSound.memory _)
  · exact (Machine.store_of_not_store (by rw [hKind]; nofun)).symm
  · rw [hPerformed]
    rfl

/-- a store, -/
theorem effect_store (h : Agrees r a) (hSound : a.Sound) (hKind : a.instruction.kind = .store) :
    ∃ e r', r.effect a.instruction a.pc = (.ok e, r') ∧ Effected r a e r' := by
  have hPerformed := Machine.performed_store hKind
  obtain ⟨addr, value, hAddr, hValue, hStore⟩ := Machine.store_of_store hSound hKind
  rw [hPerformed] at hAddr hValue
  obtain rfl := Option.some.inj hAddr
  obtain rfl := Option.some.inj hValue
  unfold Reference.effect
  simp only [hKind]
  refine ⟨_, _, rfl, h.effected_plain (by rw [hPerformed]) ?_ ?_ ?_⟩
  · rw [Machine.commit_value (by rw [hKind]; nofun), hPerformed]
    split <;> rfl
  · rw [hStore, h.wrap, h.registers, hSound.registers]
  · rw [hPerformed]
    rfl

/-- a branch, -/
theorem effect_branch (h : Agrees r a) (hKind : a.instruction.kind = .branch) :
    ∃ e r', r.effect a.instruction a.pc = (.ok e, r') ∧ Effected r a e r' := by
  obtain ⟨taken, target, hBranch⟩ := Instruction.branch_ok hKind a.operands a.pc
  have hPerformed := Machine.performed_branch hKind hBranch
  unfold Reference.effect
  simp only [hKind]
  rw [Reference.jump_eq hKind (r.registers.isWord_read a.instruction.rs1)
    (r.registers.isWord_read a.instruction.rs2) hBranch h.first h.second]
  refine ⟨_, _, rfl, h.effected_plain (by rw [hPerformed]) ?_ ?_ ?_⟩
  · rw [Machine.commit_value (by rw [hKind]; nofun), hPerformed]
    split <;> rfl
  · exact (Machine.store_of_not_store (by rw [hKind]; nofun)).symm
  · rw [hPerformed]
    rfl

/-- and an instruction that ends the run. -/
theorem effect_idle (h : Agrees r a)
    (hKind : a.instruction.kind = .system ∨ a.instruction.kind = .illegal) :
    ∃ e r', r.effect a.instruction a.pc = (.ok e, r') ∧ Effected r a e r' := by
  have hPerformed := Machine.performed_idle hKind
  have hOther : a.instruction.kind ≠ .load ∧ a.instruction.kind ≠ .store := by
    rcases hKind with hIs | hIs <;> rw [hIs] <;> exact ⟨nofun, nofun⟩
  refine ⟨⟨none, none, u32 (a.pc + 4)⟩, r, ?_, h.effected_plain (by rw [hPerformed]) ?_ ?_ ?_⟩
  · unfold Reference.effect
    rcases hKind with hIs | hIs <;> simp only [hIs]
  · rw [Machine.commit_value hOther.1, hPerformed]
    split <;> rfl
  · exact (Machine.store_of_not_store hOther.2).symm
  · rw [hPerformed]
    rfl

/-- An accelerator has the same effect if its window is exact. -/
theorem effect_accelerator (h : Agrees r a) (hSound : a.Sound)
    (hExact : r.ExactWindow a.instruction) (acc : Accelerator)
    (hKind : a.instruction.kind = acc.kind) :
    ∃ e r', r.effect a.instruction a.pc = (.ok e, r') ∧ Effected r a e r' := by
  have hA : IsWord (r.registers.read a.instruction.rs1) := by
    rw [h.registers]
    exact hSound.registers _
  have hB : IsWord (r.registers.read a.instruction.rs2) := by
    rw [h.registers]
    exact hSound.registers _
  have hVariant : a.instruction.funct3 = a.instruction.mnemonic.variant := by
    refine Instruction.funct3_decode _ ?_
    change a.instruction.kind.accelerated = true
    rw [hKind]
    cases acc <;> rfl
  have hRest := r.effect_rest a.instruction a.pc
  unfold Reference.effect at hRest ⊢
  cases acc with
  | mac =>
      have hThird : (Operand.rd, a.instruction.rd) ∈ a.instruction.sources →
          a.operands.value .rd = r.registers.read a.instruction.rd := by
        intro hNames
        rw [Machine.value_operands hNames, h.registers]
      have hMatches := Reference.multiply_matches h.mirrors hKind hVariant
        h.first h.second hThird ((a.units.reads .mac a.instruction a.operands).map a.memory)
      simp only [hKind, Accelerator.kind] at hRest ⊢
      exact ⟨_, _, rfl, effected_accelerator hSound .mac hKind hMatches h.keeps hRest⟩
  | relu =>
      have hMatches := Reference.rectify_matches h.mirrors hKind hVariant
        h.first ((a.units.reads .relu a.instruction a.operands).map a.memory)
      simp only [hKind, Accelerator.kind] at hRest ⊢
      exact ⟨_, _, rfl, effected_accelerator hSound .relu hKind hMatches h.keeps hRest⟩
  | conv2d =>
      have hKeeps : a.units.conv2d.Keeps r.peek := by
        rw [h.words]
        exact h.keeps
      obtain ⟨hMatches, hKept⟩ := Reference.convolve_matches h.mirrors hSound.fit hKind
        hVariant h.first h.second hA hB hKeeps
      rw [h.words] at hMatches hKept
      simp only [hKind, Accelerator.kind] at hRest ⊢
      exact ⟨_, _, rfl, effected_accelerator hSound .conv2d hKind hMatches hKept hRest⟩
  | fir =>
      have hMatches := Reference.filter_matches h.mirrors hKind hVariant h.first
      rw [h.words] at hMatches
      simp only [hKind, Accelerator.kind] at hRest ⊢
      exact ⟨_, _, rfl, effected_accelerator hSound .fir hKind hMatches h.keeps hRest⟩
  | pool =>
      obtain ⟨v, r', hPool, hMatches⟩ := Reference.pool_matches h.mirrors hSound.fit hKind
        hVariant h.first h.second hA hB hExact
      rw [h.words] at hMatches
      simp only [hKind, Accelerator.kind, hPool] at hRest ⊢
      exact ⟨_, _, rfl, effected_accelerator hSound .pool hKind hMatches h.keeps hRest⟩

/-- The reference machine can carry out every instruction with an exact window. -/
theorem effect (h : Agrees r a) (hSound : a.Sound) (hExact : r.ExactWindow a.instruction) :
    ∃ e r', r.effect a.instruction a.pc = (.ok e, r') ∧ Effected r a e r' := by
  cases hKind : a.instruction.kind with
  | alu => exact h.effect_alu hKind
  | load => exact h.effect_load hSound hKind
  | store => exact h.effect_store hSound hKind
  | branch => exact h.effect_branch hKind
  | system => exact h.effect_idle (.inl hKind)
  | illegal => exact h.effect_idle (.inr hKind)
  | mac => exact h.effect_accelerator hSound hExact .mac hKind
  | relu => exact h.effect_accelerator hSound hExact .relu hKind
  | conv2d => exact h.effect_accelerator hSound hExact .conv2d hKind
  | fir => exact h.effect_accelerator hSound hExact .fir hKind
  | pool => exact h.effect_accelerator hSound hExact .pool hKind

end Agrees

end AccelPipe

import AccelPipe.Proofs.Accelerator.Saturation
import AccelPipe.Proofs.Constant
import AccelPipe.Proofs.Reference.Agreement

/-! The machine after an instruction, for those that neither load nor store: what they write, and where
the machine goes on. -/
namespace AccelPipe.Machine

variable {a : Machine}

/-- An instruction with a result writes it, and the machine goes on behind it. -/
theorem next_writes {v : Int} {saturated : Bool} {units : Units}
    (hLoad : a.instruction.kind ≠ .load) (hWrites : a.instruction.writesRd = true)
    (hPerformed : a.performed = ({ result := some v, saturated }, units)) :
    a.next = { a with
      registers := a.registers.write a.instruction.rd v, units, pc := a.pc + 4
      halted := false } := by
  have hValue : a.commit.value = some v := by
    rw [commit_value hLoad, if_pos hWrites, hPerformed]
  have hRd : a.commit.rd = a.instruction.rd := if_pos hWrites
  obtain ⟨hStore, hSystem, hIllegal⟩ := Instruction.kind_of_writesRd hWrites
  have hGoesOn : Pipeline.ending a.instruction.kind = none := by
    cases hKind : a.instruction.kind <;> first | rfl | exact absurd hKind ‹_›
  unfold next
  rw [store_of_not_store hStore, hValue, hRd, hPerformed, hGoesOn]
  rfl

/-- An instruction without a result leaves the registers as they are. -/
theorem next_registers (hLoad : a.instruction.kind ≠ .load)
    (hWrites : a.instruction.writesRd = false) : a.next.registers = a.registers := by
  have hValue : a.commit.value = none := by
    rw [commit_value hLoad, hWrites]
    rfl
  unfold next
  rw [hValue]

/-- Arithmetic writes a register and goes on behind it. -/
theorem next_alu {v : Int} (hKind : a.instruction.kind = .alu)
    (hAlu : a.instruction.alu a.operands a.pc = .ok v) :
    a.next = { a with
      registers := a.registers.write a.instruction.rd v, pc := a.pc + 4, halted := false } :=
  next_writes (by rw [hKind]; nofun)
    (Instruction.writesRd_of_kind (by rw [hKind]; nofun) (by rw [hKind]; nofun)
      (by rw [hKind]; nofun) (by rw [hKind]; nofun))
    (performed_alu hKind hAlu)

theorem next_addi (h : a.instruction.mnemonic = .addi) :
    a.next = { a with
      registers := a.registers.write a.instruction.rd
        (a.registers.read a.instruction.rs1 + a.instruction.imm)
      pc := a.pc + 4, halted := false } := by
  have hSource : (Operand.rs1, a.instruction.rs1) ∈ a.instruction.sources := by
    unfold Instruction.sources
    rw [h]
    exact List.mem_cons_self
  have hAlu : a.instruction.alu a.operands a.pc =
      .ok (s32 (a.registers.read a.instruction.rs1 + a.instruction.imm)) := by
    unfold Instruction.alu
    rw [h, value_operands hSource]
    unfold Instruction.second Instruction.format
    rw [h]
    rfl
  rw [next_alu (congrArg Mnemonic.kind h) hAlu, Registers.write_s32]

theorem next_lui (h : a.instruction.mnemonic = .lui) :
    a.next = { a with
      registers := a.registers.write a.instruction.rd a.instruction.imm
      pc := a.pc + 4, halted := false } := by
  have hAlu : a.instruction.alu a.operands a.pc = .ok (s32 a.instruction.imm) := by
    unfold Instruction.alu
    rw [h]
  rw [next_alu (congrArg Mnemonic.kind h) hAlu, Registers.write_s32]

/-- A clamped sum is as far up as accumulator and register have room. -/
theorem next_mac (h : a.instruction.mnemonic = .mac) (hWidth : 0 < a.units.precision.accBits) :
    ∃ units, units.precision = a.units.precision ∧ a.next = { a with
      registers := a.registers.write a.instruction.rd
        (fitted (a.registers.read a.instruction.rd +
          a.units.precision.operand (a.registers.read a.instruction.rs1) *
            a.units.precision.operand (a.registers.read a.instruction.rs2))
          (min a.units.precision.accBits 32) true)
      units, pc := a.pc + 4, halted := false } := by
  have hKind : a.instruction.kind = Accelerator.mac.kind := congrArg Mnemonic.kind h
  have hWrites : a.instruction.writesRd = true := by
    unfold Instruction.writesRd
    rw [h]
  have hSources : a.instruction.sources =
      [(.rd, a.instruction.rd), (.rs1, a.instruction.rs1), (.rs2, a.instruction.rs2)] := by
    unfold Instruction.sources
    rw [h]
  have hFirst : a.operands.value .rs1 = a.registers.read a.instruction.rs1 :=
    value_operands (by rw [hSources]; simp)
  have hSecond : a.operands.value .rs2 = a.registers.read a.instruction.rs2 :=
    value_operands (by rw [hSources]; simp)
  have hOld : a.operands.value .rd = a.registers.read a.instruction.rd :=
    value_operands (by rw [hSources]; simp)
  have hSum : a.units.exactSum? a.instruction a.operands [] =
      some ⟨.mac, a.registers.read a.instruction.rd +
        a.units.precision.operand (a.registers.read a.instruction.rs1) *
          a.units.precision.operand (a.registers.read a.instruction.rs2), true⟩ := by
    unfold Units.exactSum?
    rw [h, hFirst, hSecond, hOld]
  generalize a.registers.read a.instruction.rd + _ = sum at hSum ⊢
  have hResult : (a.units.execute .mac a.instruction a.operands []).1 =
      .ok (a.units.precision.outcome sum (some true)).result := Units.execute_exactSum hSum rfl
  have hPerform : perform a.units a.memory a.instruction a.operands a.pc = _ :=
    perform_unit hKind a.units a.memory a.operands a.pc
  change _ = (a.units.execute .mac a.instruction a.operands []).1 >>= _ at hPerform
  rw [hResult, ok_bind] at hPerform
  have hNext := next_writes (by rw [hKind]; nofun) hWrites (performed_of_perform hPerform)
  rw [Precision.value_outcome _ _ hWidth] at hNext
  exact ⟨_, a.units.precision_happen (.operate .mac a.instruction a.operands _), hNext⟩

/-- A comparison writes nothing. -/
theorem next_bne (h : a.instruction.mnemonic = .bne) :
    a.next = { a with
      pc := if s32 (a.registers.read a.instruction.rs1) = s32 (a.registers.read a.instruction.rs2)
        then a.pc + 4 else u32 (a.pc + a.instruction.imm)
      flushes := a.flushes +
        if s32 (a.registers.read a.instruction.rs1) = s32 (a.registers.read a.instruction.rs2)
        then 0 else 1
      halted := false } := by
  have hKind : a.instruction.kind = .branch := congrArg Mnemonic.kind h
  have hWrites : a.instruction.writesRd = false := by
    unfold Instruction.writesRd
    rw [h]
  have hSources : a.instruction.sources =
      [(.rs1, a.instruction.rs1), (.rs2, a.instruction.rs2)] := by
    unfold Instruction.sources
    rw [h]
  have hFirst : a.operands.value .rs1 = a.registers.read a.instruction.rs1 :=
    value_operands (by rw [hSources]; simp)
  have hSecond : a.operands.value .rs2 = a.registers.read a.instruction.rs2 :=
    value_operands (by rw [hSources]; simp)
  have hBranch : a.instruction.branch a.operands a.pc =
      .ok (s32 (a.registers.read a.instruction.rs1) != s32 (a.registers.read a.instruction.rs2),
        u32 (a.pc + a.instruction.imm)) := by
    unfold Instruction.branch
    rw [h, hFirst, hSecond]
  have hValue : a.commit.value = none := by
    rw [commit_value (by rw [hKind]; nofun), hWrites]
    rfl
  unfold next
  rw [store_of_not_store (by rw [hKind]; nofun), hValue, performed_branch hKind hBranch, hKind]
  by_cases hSame : s32 (a.registers.read a.instruction.rs1) =
      s32 (a.registers.read a.instruction.rs2)
  · simp [hSame, Pipeline.ending]
  · simp [hSame, Pipeline.ending]

end AccelPipe.Machine

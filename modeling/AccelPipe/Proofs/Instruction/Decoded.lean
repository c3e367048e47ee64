import AccelPipe.Accelerator.Mac
import AccelPipe.Alu
import AccelPipe.Assembly.Emit
import AccelPipe.Proofs.Bits

/-! What holds of every decoded instruction: its fields have their widths, and they spell its
mnemonic. The function field of an accelerator instruction spells its variant. -/
namespace AccelPipe

/-- The function field of the variants of an accelerator instruction. -/
def Mnemonic.variant : Mnemonic → Nat
  | .macW | .reluB | .conv2dLd | .firLd | .poolMax => 1
  | .maca | .firClr | .poolAvg => 2
  | .macz => 3
  | _ => 0

/-- The mnemonics whose immediate is a register field. -/
def Mnemonic.shifts : Mnemonic → Bool
  | .slli | .srli | .srai => true
  | _ => false

/-! The mnemonics of the accelerator units. -/

section Kinds

variable {m : Mnemonic}

theorem Mnemonic.of_kind_mac (h : m.kind = .mac) :
    m = .mac ∨ m = .macW ∨ m = .maca ∨ m = .macz := by
  cases m <;> first | cases h; done | decide

theorem Mnemonic.of_kind_relu (h : m.kind = .relu) : m = .relu ∨ m = .reluB := by
  cases m <;> first | cases h; done | decide

theorem Mnemonic.of_kind_conv2d (h : m.kind = .conv2d) : m = .conv2d ∨ m = .conv2dLd := by
  cases m <;> first | cases h; done | decide

theorem Mnemonic.of_kind_fir (h : m.kind = .fir) : m = .fir ∨ m = .firLd ∨ m = .firClr := by
  cases m <;> first | cases h; done | decide

theorem Mnemonic.of_kind_pool (h : m.kind = .pool) : m = .pool ∨ m = .poolMax ∨ m = .poolAvg := by
  cases m <;> first | cases h; done | decide

theorem Mnemonic.format_of_pool (h : m.kind = .pool) : m.format = .r ∧ m ≠ .illegal := by
  rcases Mnemonic.of_kind_pool h with rfl | rfl | rfl <;> exact ⟨rfl, nofun⟩

end Kinds

/-- The variant of an accelerator instruction is in its word. -/
theorem Mnemonic.funct3_of_accelerated {m : Mnemonic} (hKind : m.kind.accelerated = true) :
    m.funct3 = m.variant := by
  cases m <;> first | rfl | cases hKind

/-- No accelerator instruction has a format without that field. -/
theorem Mnemonic.format_of_accelerated {m : Mnemonic} (hKind : m.kind.accelerated = true) :
    m.format ≠ .u ∧ m.format ≠ .j := by
  cases m <;> first | cases hKind; done | decide

namespace Instruction

/-- The fields of a word spell a legal mnemonic. -/
structure Spells (f : Instruction) (m : Mnemonic) : Prop where
  legal : m ≠ .illegal
  opcode : f.opcode = m.opcode
  funct3 : m.format ≠ .u → m.format ≠ .j → f.funct3 = m.funct3
  funct7 : m.format = .r ∨ m.shifts = true → m.kind ≠ .pool → f.funct7 = m.funct7
  slides : m.kind = .pool → f.funct7 ≤ 1
  system : m.kind = .system → f.rs1 = 0 ∧ f.rd = 0 ∧ f.funct7 = 0 ∧
    f.rs2 = if m = .ebreak then 1 else 0

section Spells

variable {f : Instruction} {m : Mnemonic}

/-- A mnemonic that the fields spell is the one that is found. -/
theorem Spells.mnemonic? (h : f.Spells m) : f.mnemonic? = some m := by
  obtain ⟨hLegal, hOpcode, hFunct3, hFunct7, hSlides, hSystem⟩ := h
  unfold Instruction.mnemonic?
  rw [hOpcode]
  cases m
  case illegal => exact absurd rfl hLegal
  case ecall | ebreak =>
    obtain ⟨hRs1, hRd, hZero, hRs2⟩ := hSystem rfl
    rw [hFunct3 nofun nofun, hRs1, hRd, hZero, hRs2]
    rfl
  case pool | poolMax | poolAvg =>
    rcases Nat.le_one_iff_eq_zero_or_eq_one.mp (hSlides rfl) with hPlain | hOne
    · rw [hFunct3 nofun nofun, hPlain]
      rfl
    · rw [hFunct3 nofun nofun, hOne]
      rfl
  all_goals
    first
      | rfl
      | rw [hFunct3 nofun nofun]; rfl
      | rw [hFunct3 nofun nofun, hFunct7 (.inl rfl) nofun]; rfl
      | rw [hFunct3 nofun nofun, hFunct7 (.inr rfl) nofun]; rfl

theorem spells_ofRegister? (hOpcode : f.opcode = Opcode.op)
    (h : Mnemonic.ofRegister? f.funct3 f.funct7 = some m) : f.Spells m := by
  unfold Mnemonic.ofRegister? at h
  split at h <;> cases h <;>
    exact ⟨nofun, hOpcode, fun _ _ => ‹_›, fun _ _ => ‹_›, nofun, nofun⟩

theorem spells_ofImmediate? (hOpcode : f.opcode = Opcode.opImm)
    (h : Mnemonic.ofImmediate? f.funct3 = some m) : f.Spells m := by
  unfold Mnemonic.ofImmediate? at h
  split at h <;> cases h <;> exact ⟨nofun, hOpcode, fun _ _ => ‹_›, nofun, nofun, nofun⟩

theorem spells_ofShift? (hOpcode : f.opcode = Opcode.opImm)
    (h : Mnemonic.ofShift? f.funct3 f.funct7 = some m) : f.Spells m := by
  unfold Mnemonic.ofShift? at h
  split at h <;> cases h <;>
    exact ⟨nofun, hOpcode, fun _ _ => ‹_›, fun _ _ => ‹_›, nofun, nofun⟩

theorem spells_ofBranch? (hOpcode : f.opcode = Opcode.branch)
    (h : Mnemonic.ofBranch? f.funct3 = some m) : f.Spells m := by
  unfold Mnemonic.ofBranch? at h
  split at h <;> cases h <;> exact ⟨nofun, hOpcode, fun _ _ => ‹_›, nofun, nofun, nofun⟩

theorem spells_ofExtension? (h : Mnemonic.ofExtension? f.opcode f.funct3 = some m)
    (hAdmits : m.format = .i ∨ m.admits f.funct7 = true) : f.Spells m := by
  have hPlain : m.format = .r → m.kind ≠ .pool → f.funct7 = 0 := by
    intro hFormat hKind
    rw [hFormat] at hAdmits
    unfold Mnemonic.admits at hAdmits
    rcases hAdmits with hNot | hAdmits
    · cases hNot
    · split at hAdmits
      · exact absurd ‹_› hKind
      · exact eq_of_beq hAdmits
  have hPool : m.kind = .pool → f.funct7 ≤ 1 := by
    intro hKind
    unfold Mnemonic.admits at hAdmits
    rw [hKind] at hAdmits
    rcases hAdmits with hNot | hAdmits
    · cases m <;> first | cases hKind; done | cases hNot
    · exact of_decide_eq_true hAdmits
  unfold Mnemonic.ofExtension? at h
  repeat' split at h
  all_goals cases h
  all_goals
    exact ⟨nofun, ‹_›, fun _ _ => ‹_›, fun hR hKind => hPlain (hR.resolve_right nofun) hKind,
      hPool, nofun⟩

/-- A mnemonic that is found is spelled by the fields. -/
theorem spells_of_mnemonic? (h : f.mnemonic? = some m) : f.Spells m := by
  unfold Instruction.mnemonic? at h
  by_cases hOp : f.opcode = Opcode.op
  · rw [if_pos hOp] at h
    exact spells_ofRegister? hOp h
  rw [if_neg hOp] at h
  by_cases hImm : f.opcode = Opcode.opImm
  · rw [if_pos hImm, Option.orElse_eq_or] at h
    rcases Option.or_eq_some_iff.mp h with hFirst | ⟨-, hShift⟩
    · exact spells_ofImmediate? hImm hFirst
    · exact spells_ofShift? hImm hShift
  rw [if_neg hImm] at h
  by_cases hLui : f.opcode = Opcode.lui
  · rw [if_pos hLui] at h
    cases h
    exact ⟨nofun, hLui, nofun, nofun, nofun, nofun⟩
  rw [if_neg hLui] at h
  by_cases hAuipc : f.opcode = Opcode.auipc
  · rw [if_pos hAuipc] at h
    cases h
    exact ⟨nofun, hAuipc, nofun, nofun, nofun, nofun⟩
  rw [if_neg hAuipc] at h
  by_cases hLoad : f.opcode = Opcode.load
  · rw [if_pos hLoad] at h
    obtain ⟨hFunct3, hLw⟩ := Option.ite_none_right_eq_some.mp h
    cases hLw
    exact ⟨nofun, hLoad, fun _ _ => hFunct3, nofun, nofun, nofun⟩
  rw [if_neg hLoad] at h
  by_cases hStore : f.opcode = Opcode.store
  · rw [if_pos hStore] at h
    obtain ⟨hFunct3, hSw⟩ := Option.ite_none_right_eq_some.mp h
    cases hSw
    exact ⟨nofun, hStore, fun _ _ => hFunct3, nofun, nofun, nofun⟩
  rw [if_neg hStore] at h
  by_cases hBranch : f.opcode = Opcode.branch
  · rw [if_pos hBranch] at h
    exact spells_ofBranch? hBranch h
  rw [if_neg hBranch] at h
  by_cases hJal : f.opcode = Opcode.jal
  · rw [if_pos hJal] at h
    cases h
    exact ⟨nofun, hJal, nofun, nofun, nofun, nofun⟩
  rw [if_neg hJal] at h
  by_cases hJalr : f.opcode = Opcode.jalr
  · rw [if_pos hJalr] at h
    obtain ⟨hFunct3, hIs⟩ := Option.ite_none_right_eq_some.mp h
    cases hIs
    exact ⟨nofun, hJalr, fun _ _ => hFunct3, nofun, nofun, nofun⟩
  rw [if_neg hJalr] at h
  by_cases hSystem : f.opcode = Opcode.system
  · rw [if_pos hSystem] at h
    obtain ⟨⟨hFunct3, hRs1, hRd, hFunct7⟩, hCall⟩ := Option.ite_none_right_eq_some.mp h
    split at hCall
    · cases hCall
      exact ⟨nofun, hSystem, fun _ _ => hFunct3, nofun, nofun,
        fun _ => ⟨hRs1, hRd, hFunct7, ‹_›⟩⟩
    · obtain ⟨hRs2, hBreak⟩ := Option.ite_none_right_eq_some.mp hCall
      cases hBreak
      exact ⟨nofun, hSystem, fun _ _ => hFunct3, nofun, nofun,
        fun _ => ⟨hRs1, hRd, hFunct7, hRs2⟩⟩
  rw [if_neg hSystem] at h
  obtain ⟨hExtension, hAdmits⟩ := Option.filter_eq_some_iff.mp h
  exact spells_ofExtension? hExtension (by simpa using hAdmits)

/-- Which mnemonic the fields of a word spell. -/
theorem mnemonic?_eq_some_iff : f.mnemonic? = some m ↔ f.Spells m :=
  ⟨spells_of_mnemonic?, Spells.mnemonic?⟩

/-- Fields that spell an accelerator instruction spell its variant. -/
theorem mnemonic?_variant (h : f.mnemonic? = some m) (hKind : m.kind.accelerated = true) :
    f.funct3 = m.variant := by
  obtain ⟨hU, hJ⟩ := Mnemonic.format_of_accelerated hKind
  rw [← Mnemonic.funct3_of_accelerated hKind]
  exact (spells_of_mnemonic? h).funct3 hU hJ

end Spells

theorem mnemonic_withMnemonic (f : Instruction) (m : Mnemonic) :
    (f.withMnemonic m).mnemonic = m := by
  cases m <;> rfl

/-- An accelerator instruction keeps its function field. -/
theorem funct3_withMnemonic (f : Instruction) {m : Mnemonic} (hKind : m.kind.accelerated = true) :
    (f.withMnemonic m).funct3 = f.funct3 := by
  cases m <;> first | rfl | cases hKind

/-- The register field stays, unless the mnemonic has none. -/
theorem rd_withMnemonic (f : Instruction) (m : Mnemonic) :
    (f.withMnemonic m).rd = f.rd ∨ (f.withMnemonic m).rd = 0 := by
  cases m <;> first | exact .inl rfl | exact .inr rfl

/-- An instruction is either illegal or spelled by the fields of its word. -/
theorem decode_cases (word : Int) :
    decode word = fieldsOf (u32 word) ∨
      ∃ m, (fieldsOf (u32 word)).mnemonic? = some m ∧
        decode word = (fieldsOf (u32 word)).withMnemonic m := by
  unfold decode
  dsimp only
  cases hSpelled : (fieldsOf (u32 word)).mnemonic? with
  | none => exact .inl rfl
  | some m => exact .inr ⟨m, rfl, rfl⟩

/-- A decoded instruction names one of 32 registers. -/
theorem rd_decode_lt (word : Int) : (decode word).rd < 32 := by
  have hField : (fieldsOf (u32 word)).rd < 32 := Nat.mod_lt _ (by decide)
  rcases decode_cases word with hIllegal | ⟨m, -, hLegal⟩
  · rw [hIllegal]
    exact hField
  · rw [hLegal]
    rcases rd_withMnemonic (fieldsOf (u32 word)) m with hKept | hCleared
    · rw [hKept]
      exact hField
    · rw [hCleared]
      decide

/-- The immediate of a mnemonic is a word. -/
theorem isWord_imm_withMnemonic {f : Instruction} (hImm : IsWord f.imm) (hRs2 : f.rs2 < 32)
    (m : Mnemonic) : IsWord (f.withMnemonic m).imm := by
  have hShift : IsWord f.rs2 := isWord_iff.mpr (by omega)
  have hOne : IsWord 1 := isWord_iff.mpr (by decide)
  unfold withMnemonic
  cases m <;> dsimp only [Mnemonic.format]
  case slli | srli | srai => exact hShift
  case ecall => exact isWord_zero
  case ebreak => exact hOne
  case lui | auipc => exact isWord_s32 _
  case jal => exact isWord_signExtend (show 0 < 21 by decide) (by decide) _
  case beq | bne | blt | bge | bltu | bgeu =>
    exact isWord_signExtend (show 0 < 13 by decide) (by decide) _
  all_goals
    first
      | with_reducible exact hImm
      | exact isWord_signExtend (show 0 < 12 by decide) (by decide) _

/-- An immediate is a word: it is an extended field, or a field of five bits. -/
theorem isWord_imm_decode (word : Int) : IsWord (decode word).imm := by
  rcases decode_cases word with hIllegal | ⟨m, -, hLegal⟩
  · rw [hIllegal]
    exact isWord_zero
  · rw [hLegal]
    exact isWord_imm_withMnemonic isWord_zero (Nat.mod_lt _ (by decide)) m

/-- What a decoded instruction produces is one of 32 registers. -/
theorem produces_decode_lt (word : Int) : (decode word).produces < 32 := by
  unfold produces
  split
  · exact rd_decode_lt word
  · decide

/-- The variant of a decoded accelerator instruction is in its word. -/
theorem funct3_decode (word : Int) (hKind : (decode word).kind.accelerated = true) :
    (decode word).funct3 = (decode word).mnemonic.variant := by
  rcases decode_cases word with hIllegal | ⟨m, hSpelled, hLegal⟩
  · rw [hIllegal] at hKind
    cases hKind
  · have hMnemonic : (decode word).mnemonic = m := by
      rw [hLegal, mnemonic_withMnemonic]
    unfold kind at hKind
    rw [hMnemonic] at hKind ⊢
    rw [hLegal, funct3_withMnemonic _ hKind]
    exact mnemonic?_variant hSpelled hKind

/-- A word that no program contains is an illegal instruction. -/
theorem decode_zero : (decode 0).kind = .illegal := by
  decide

/-! The arithmetic and branch units know all instructions of their kind. -/

/-- Every arithmetic instruction has a word as its result. -/
theorem alu_ok {ins : Instruction} (hKind : ins.kind = .alu) (ops : Operands) (pc : Int) :
    ∃ v, ins.alu ops pc = .ok v ∧ IsWord v := by
  have hBit : ∀ condition : Prop, [Decidable condition] →
      IsWord (if condition then 1 else 0) := by
    intro condition _
    split <;> exact isWord_iff.mpr (by decide)
  unfold kind at hKind
  unfold alu
  cases hMnemonic : ins.mnemonic <;> rw [hMnemonic] at hKind <;>
    first
      | cases hKind; done
      | exact ⟨_, rfl, by with_reducible exact isWord_s32 _⟩
      | exact ⟨_, rfl, hBit _⟩

/-- Every branch is decided. -/
theorem branch_ok {ins : Instruction} (hKind : ins.kind = .branch) (ops : Operands) (pc : Int) :
    ∃ taken target, ins.branch ops pc = .ok (taken, target) := by
  unfold kind at hKind
  unfold branch
  cases hMnemonic : ins.mnemonic <;> rw [hMnemonic] at hKind <;>
    first
      | cases hKind; done
      | exact ⟨_, _, rfl⟩

/-- Every variant of the multiply-accumulate instruction is known. -/
theorem macVariant_ok {word : Int} (hKind : (decode word).kind = .mac) :
    ∃ v, Mac.variant? (decode word) = some v := by
  have hVariant := funct3_decode word (by rw [hKind]; rfl)
  unfold Mac.variant?
  rw [hVariant]
  rcases Mnemonic.of_kind_mac hKind with hMnemonic | hMnemonic | hMnemonic | hMnemonic <;>
    rw [hMnemonic] <;> exact ⟨_, rfl⟩

/-! Which operands an instruction reads. -/

/-- An instruction has three sources at most, in a fixed order. -/
theorem sources_cases (ins : Instruction) :
    ins.sources = [] ∨ ins.sources = [(.rs1, ins.rs1)] ∨
      ins.sources = [(.rs1, ins.rs1), (.rs2, ins.rs2)] ∨
      ins.sources = [(.rd, ins.rd), (.rs1, ins.rs1), (.rs2, ins.rs2)] := by
  unfold sources
  cases ins.mnemonic <;> simp <;> cases ins.slides <;> simp

/-- No operand is named twice. -/
theorem sources_nodup (ins : Instruction) : (ins.sources.map (·.1)).Nodup := by
  rcases sources_cases ins with hShape | hShape | hShape | hShape <;> rw [hShape] <;> simp

/-- Loads and stores have a base. -/
theorem rs1_mem_sources {ins : Instruction} (hKind : ins.kind = .load ∨ ins.kind = .store) :
    (Operand.rs1, ins.rs1) ∈ ins.sources := by
  unfold kind at hKind
  unfold sources
  cases hMnemonic : ins.mnemonic <;> rw [hMnemonic] at hKind <;>
    first
      | rcases hKind with hKind | hKind <;> cases hKind; done
      | simp

/-- Stores have a value. -/
theorem rs2_mem_sources {ins : Instruction} (hKind : ins.kind = .store) :
    (Operand.rs2, ins.rs2) ∈ ins.sources := by
  unfold kind at hKind
  unfold sources
  cases hMnemonic : ins.mnemonic <;> rw [hMnemonic] at hKind <;>
    first
      | cases hKind; done
      | simp

/-- Multiplying has two factors. -/
theorem mem_sources_of_mac {ins : Instruction} (hKind : ins.kind = .mac) :
    (Operand.rs1, ins.rs1) ∈ ins.sources ∧ (Operand.rs2, ins.rs2) ∈ ins.sources := by
  unfold sources
  rcases Mnemonic.of_kind_mac hKind with hMnemonic | hMnemonic | hMnemonic | hMnemonic <;>
    rw [hMnemonic] <;> simp

/-- A rectifier has one source. -/
theorem sources_of_relu {ins : Instruction} (hKind : ins.kind = .relu) :
    ins.sources = [(.rs1, ins.rs1)] := by
  unfold sources
  rcases Mnemonic.of_kind_relu hKind with hMnemonic | hMnemonic <;> rw [hMnemonic]

/-- Pooling has a base and a pitch, unless it slides. -/
theorem sources_of_pool {ins : Instruction} (hKind : ins.kind = .pool) :
    ins.sources = if ins.slides then [] else [(.rs1, ins.rs1), (.rs2, ins.rs2)] := by
  unfold sources
  rcases Mnemonic.of_kind_pool hKind with hMnemonic | hMnemonic | hMnemonic <;> rw [hMnemonic]

end Instruction

end AccelPipe

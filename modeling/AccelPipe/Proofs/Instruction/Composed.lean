import AccelPipe.Proofs.Instruction.Encoded

/-! Words from fields. Fields that fit their widths are encoded, and the decoder finds them in the
word again, under the mnemonic whose opcode and function fields they are. -/
namespace AccelPipe

/-- Opcodes and variants of mnemonics fit their fields. -/
theorem Mnemonic.opcode_lt (m : Mnemonic) : m.opcode < 0x80 := by
  cases m <;> decide

theorem Mnemonic.funct3_lt (m : Mnemonic) : m.funct3 < 8 := by
  cases m <;> decide

theorem Mnemonic.funct7_lt (m : Mnemonic) : m.funct7 < 0x80 := by
  cases m <;> decide

open Instruction

namespace Encode

variable {opcode rd funct3 rs1 rs2 funct7 : Nat} {imm : Int}

/-- Fields that fit compose a word in the register format, and are found in it again. -/
theorem r_composed (hOpcode : opcode < 0x80) (hRd : rd < 32) (hFunct3 : funct3 < 8)
    (hRs1 : rs1 < 32) (hRs2 : rs2 < 32) (hFunct7 : funct7 < 0x80) :
    ∃ w < 0x100000000, r opcode rd funct3 rs1 rs2 funct7 = .ok w ∧
      fieldsOf w = ⟨w, opcode, funct3, funct7, rs1, rs2, rd, 0, .illegal⟩ := by
  refine ⟨funct7 * 0x2000000 + rs2 * 0x100000 + rs1 * 0x8000 + funct3 * 0x1000 + rd * 0x80 + opcode,
    by omega, ?_, ?_⟩
  · unfold r
    rw [register_ok hRd, register_ok hRs1, register_ok hRs2, cut_ok hFunct7, cut_ok hFunct3,
      cut_ok hOpcode]
    rfl
  · unfold fieldsOf
    congr 1 <;> omega

/-- The twelve bits of an immediate. -/
theorem cut_immediate (hLow : -0x800 ≤ imm) (hHigh : imm ≤ 0x7ff) :
    ∃ n < 0x1000, cut imm 12 = n ∧ signExtend (n : Nat) 12 = imm := by
  refine ⟨cut imm 12, ?_, rfl, ?_⟩
  · unfold cut
    change (imm % 0x1000).toNat < 0x1000
    omega
  · unfold cut signExtend
    rw [Int.toNat_of_nonneg (Int.emod_nonneg imm (by decide)), Int.emod_bmod]
    exact Int.bmod_eq_of_le hLow (by change imm < 0x800; omega)

/-- So they do with a signed immediate, -/
theorem i_composed (hOpcode : opcode < 0x80) (hRd : rd < 32) (hFunct3 : funct3 < 8)
    (hRs1 : rs1 < 32) (hLow : -0x800 ≤ imm) (hHigh : imm ≤ 0x7ff) :
    ∃ w < 0x100000000, i opcode rd funct3 rs1 imm = .ok w ∧ (fieldsOf w).opcode = opcode ∧
      (fieldsOf w).funct3 = funct3 ∧ (fieldsOf w).rs1 = rs1 ∧ Immediate.i w = imm := by
  obtain ⟨n, hSmall, hCut, hImm⟩ := cut_immediate hLow hHigh
  obtain ⟨w, hWord⟩ : ∃ w, w = n * 0x100000 + rs1 * 0x8000 + funct3 * 0x1000 + rd * 0x80 + opcode :=
    ⟨_, rfl⟩
  refine ⟨w, by omega, ?_, ?_, ?_, ?_, ?_⟩
  · unfold i
    rw [register_ok hRd, register_ok hRs1, immediate_ok hLow hHigh, hCut, cut_ok hFunct3,
      cut_ok hOpcode, hWord]
    rfl
  · change w % 0x80 = opcode
    omega
  · change w / 0x1000 % 8 = funct3
    omega
  · change w / 0x8000 % 0x20 = rs1
    omega
  · have hTop : (w : Int) / 0x100000 = (n : Nat) := by omega
    unfold Immediate.i
    rw [hTop, hImm]

/-- in the format of stores, -/
theorem s_composed (hOpcode : opcode < 0x80) (hFunct3 : funct3 < 8) (hRs1 : rs1 < 32)
    (hRs2 : rs2 < 32) (hLow : -0x800 ≤ imm) (hHigh : imm ≤ 0x7ff) :
    ∃ w < 0x100000000, s opcode funct3 rs1 rs2 imm = .ok w ∧ (fieldsOf w).opcode = opcode ∧
      (fieldsOf w).funct3 = funct3 := by
  have hHighBits : slice imm 5 7 < 0x80 := by
    change (imm / 0x20 % 0x80).toNat < 0x80
    omega
  have hLowBits : slice imm 0 5 < 0x20 := by
    change (imm / 1 % 0x20).toNat < 0x20
    omega
  refine ⟨slice imm 5 7 * 0x2000000 + rs2 * 0x100000 + rs1 * 0x8000 + funct3 * 0x1000 +
    slice imm 0 5 * 0x80 + opcode, by omega, ?_, ?_, ?_⟩
  · unfold s
    rw [register_ok hRs1, register_ok hRs2, immediate_ok hLow hHigh, cut_ok hFunct3,
      cut_ok hOpcode]
    rfl
  · change _ % 0x80 = opcode
    omega
  · change _ / 0x1000 % 8 = funct3
    omega

/-- and with an upper immediate. -/
theorem u_composed {n : Nat} (hOpcode : opcode < 0x80) (hRd : rd < 32) (hSmall : n < 0x100000) :
    ∃ w < 0x100000000, u opcode rd n = .ok w ∧ (fieldsOf w).opcode = opcode := by
  refine ⟨n * 0x1000 + rd * 0x80 + opcode, by omega, ?_, ?_⟩
  · unfold u
    rw [register_ok hRd, cut_ok hSmall, cut_ok hOpcode]
    rfl
  · change _ % 0x80 = opcode
    omega

end Encode

namespace Instruction

/-- An encoder makes a word, which the decoder knows by a mnemonic. -/
structure Composes (word : Except Refusal Nat) (m : Mnemonic) (w : Nat) : Prop where
  made : word = .ok w
  small : w < 0x100000000
  mnemonic : (decode w).mnemonic = m

variable {m : Mnemonic} {w rd rs1 rs2 funct7 : Nat} {imm : Int}

/-- A composed word is decoded to the kind of its mnemonic. -/
theorem Composes.kind {word : Except Refusal Nat} (h : Composes word m w) :
    (decode w).kind = m.kind :=
  congrArg Mnemonic.kind h.mnemonic

/-- Fields that are those of a mnemonic spell it. -/
theorem spells_of_fields {f : Instruction} (hLegal : m ≠ .illegal) (hSystem : m.kind ≠ .system)
    (hOpcode : f.opcode = m.opcode)
    (hFunct3 : m.format ≠ .u → m.format ≠ .j → f.funct3 = m.funct3)
    (hFunct7 : m.format = .r ∨ m.shifts = true →
      f.funct7 = m.funct7 ∨ m.kind = .pool ∧ f.funct7 = 1) : f.Spells m where
  legal := hLegal
  opcode := hOpcode
  funct3 := hFunct3
  funct7 hHas hKind := (hFunct7 hHas).resolve_right fun hPool => hKind hPool.1
  slides hKind := by
    have hFormat : m.format = .r ∧ m.funct7 = 0 := by
      cases m <;> first | exact ⟨rfl, rfl⟩ | cases hKind
    rcases hFunct7 (.inl hFormat.1) with hPlain | ⟨-, hOne⟩ <;> omega
  system hKind := absurd hKind hSystem

theorem spells_of_i {f : Instruction} (hFormat : m.format = .i) (hShifts : m.shifts = false)
    (hSystem : m.kind ≠ .system) (hOpcode : f.opcode = m.opcode) (hFunct3 : f.funct3 = m.funct3) :
    f.Spells m := by
  refine spells_of_fields ?_ hSystem hOpcode (fun _ _ => hFunct3) ?_
  · rintro rfl
    cases hFormat
  · rw [hFormat, hShifts]
    rintro (hOther | hOther) <;> cases hOther

theorem spells_of_u {f : Instruction} (hFormat : m.format = .u) (hOpcode : f.opcode = m.opcode) :
    f.Spells m := by
  cases m <;> first
    | cases hFormat; done
    | exact spells_of_fields nofun nofun hOpcode nofun nofun

/-- A word composes the mnemonic that its fields spell. -/
theorem composes_of_spells {word : Except Refusal Nat} (hMade : word = .ok w)
    (hSmall : w < 0x100000000) (h : (fieldsOf w).Spells m) : Composes word m w :=
  ⟨hMade, hSmall, by rw [decode_of_spells hSmall h, mnemonic_withMnemonic]⟩

/-- Three registers, or two and an amount. The function field may make a pool instruction slide. -/
theorem composes_r (hFormat : m.format = .r ∨ m.shifts = true) (hLegal : m ≠ .illegal)
    (hRd : rd < 32) (hRs1 : rs1 < 32) (hRs2 : rs2 < 32)
    (hFunct7 : funct7 = m.funct7 ∨ m.kind = .pool ∧ funct7 = 1) :
    ∃ w, Composes (Encode.r m.opcode rd m.funct3 rs1 rs2 funct7) m w := by
  have hSmall : funct7 < 0x80 := by
    rcases hFunct7 with rfl | ⟨-, rfl⟩
    · exact m.funct7_lt
    · decide
  have hSystem : m.kind ≠ .system := by
    intro hKind
    cases m <;> first | cases hKind; done | rcases hFormat with hR | hShifts <;> contradiction
  obtain ⟨w, hWord, hMade, hFields⟩ :=
    Encode.r_composed m.opcode_lt hRd m.funct3_lt hRs1 hRs2 hSmall
  refine ⟨w, composes_of_spells hMade hWord ?_⟩
  rw [hFields]
  exact spells_of_fields hLegal hSystem rfl (fun _ _ => rfl) fun _ => hFunct7

theorem withMnemonic_i (f : Instruction) (hFormat : m.format = .i) (hShifts : m.shifts = false)
    (hSystem : m.kind ≠ .system) :
    (f.withMnemonic m).rs1 = f.rs1 ∧ (f.withMnemonic m).imm = Immediate.i f.word := by
  cases m <;> first
    | cases hFormat; done
    | cases hShifts; done
    | exact absurd rfl hSystem
    | simp only [withMnemonic, Mnemonic.format, and_self]

/-- Two registers and an immediate. -/
theorem composes_i (hFormat : m.format = .i) (hShifts : m.shifts = false)
    (hSystem : m.kind ≠ .system) (hRd : rd < 32) (hRs1 : rs1 < 32) (hLow : -0x800 ≤ imm)
    (hHigh : imm ≤ 0x7ff) :
    ∃ w, Composes (Encode.i m.opcode rd m.funct3 rs1 imm) m w ∧ (decode w).rs1 = rs1 ∧
      (decode w).imm = imm := by
  obtain ⟨w, hWord, hMade, hOpcode, hFunct3, hFirst, hImm⟩ :=
    Encode.i_composed m.opcode_lt hRd m.funct3_lt hRs1 hLow hHigh
  have hSpells := spells_of_i hFormat hShifts hSystem hOpcode hFunct3
  refine ⟨w, composes_of_spells hMade hWord hSpells, ?_⟩
  rw [decode_of_spells hWord hSpells]
  obtain ⟨hSame, hValue⟩ := (fieldsOf w).withMnemonic_i hFormat hShifts hSystem
  rw [hSame, hValue, word_fieldsOf]
  exact ⟨hFirst, hImm⟩

/-- Stores are composed, -/
theorem composes_s (hRs1 : rs1 < 32) (hRs2 : rs2 < 32) (hLow : -0x800 ≤ imm)
    (hHigh : imm ≤ 0x7ff) :
    ∃ w, Composes (Encode.s Mnemonic.sw.opcode Mnemonic.sw.funct3 rs1 rs2 imm) .sw w := by
  obtain ⟨w, hWord, hMade, hOpcode, hFunct3⟩ :=
    Encode.s_composed Mnemonic.sw.opcode_lt Mnemonic.sw.funct3_lt hRs1 hRs2 hLow hHigh
  exact ⟨w, composes_of_spells hMade hWord
    (spells_of_fields nofun nofun hOpcode (fun _ _ => hFunct3) nofun)⟩

/-- and so is what has an upper immediate. -/
theorem composes_u {n : Nat} (hFormat : m.format = .u) (hRd : rd < 32) (hSmall : n < 0x100000) :
    ∃ w, Composes (Encode.u m.opcode rd n) m w := by
  obtain ⟨w, hWord, hMade, hOpcode⟩ := Encode.u_composed m.opcode_lt hRd hSmall
  exact ⟨w, composes_of_spells hMade hWord (spells_of_u hFormat hOpcode)⟩

/-- Two registers and a distance. -/
theorem composes_b {n : Nat} (hFormat : m.format = .b) (hRs1 : rs1 < 32) (hRs2 : rs2 < 32)
    (hEven : n % 2 = 0) (hSmall : n < 0x1000) :
    ∃ w, Composes (Encode.b m.funct3 rs1 rs2 n) m w ∧ (decode w).imm = n := by
  have hSame : signExtend (n : Nat) 13 = n :=
    signExtend_eq_self (show Int.natAbs n < Nat.pow 2 12 from hSmall)
  have hMade := Encode.b_ok m.funct3_lt hRs1 hRs2 hEven
  rw [hSame] at hMade
  obtain ⟨hMnemonic, hImm⟩ := decode_b hFormat hMade
  exact ⟨_, ⟨hMade, (Encode.branchWord_spec m.funct3_lt hRs1 hRs2 hEven (by omega)).1, hMnemonic⟩,
    hImm⟩

/-- A register and a distance. -/
theorem composes_j {n : Nat} (hRd : rd < 32) (hEven : n % 2 = 0) (hSmall : n < 0x100000) :
    ∃ w, Composes (Encode.j rd n) .jal w ∧ (decode w).imm = n := by
  have hSame : signExtend (n : Nat) 21 = n :=
    signExtend_eq_self (show Int.natAbs n < Nat.pow 2 20 from hSmall)
  have hMade := Encode.j_ok hRd hEven
  rw [hSame] at hMade
  obtain ⟨hMnemonic, hImm⟩ := decode_j hMade
  exact ⟨_, ⟨hMade, (Encode.jumpWord_spec hRd hEven (by omega)).1, hMnemonic⟩, hImm⟩

end Instruction

end AccelPipe

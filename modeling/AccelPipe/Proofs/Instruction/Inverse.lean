import AccelPipe.Proofs.Instruction.Composed

/-! Encoders and the decoder undo each other. An encoder refuses exactly the fields that do not fit,
and its word shows all others at their places; a legal instruction that is encoded again becomes the
word that it was decoded from. -/
namespace AccelPipe

namespace Encode

def IsRegister (index : Int) : Prop := 0 ≤ index ∧ index < 32

/-- A number of the signed range of a width. -/
def InRange (v : Int) (bits : Nat) : Prop := -2 ^ (bits - 1) ≤ v ∧ v < 2 ^ (bits - 1)

/-- What an encoder makes of fields: it refuses them unless they fit, and else it makes a word that
shows them. -/
structure Encodes (word : Except Refusal Nat) (fits : Prop) (shows : Nat → Prop) : Prop where
  refused : (∃ e, word = .error e) ↔ ¬ fits
  made : ∀ w, word = .ok w → w < 0x100000000 ∧ shows w

namespace Encodes

variable {α : Type} {fits good : Prop} {shows : Nat → Prop} {k : α → Except Refusal Nat}

/-- A word that comes about without a check shows what it should. -/
theorem of_ok {w : Nat} (hWord : w < 0x100000000) (hShows : shows w) :
    Encodes (.ok w) True shows where
  refused := ⟨nofun, fun hNot => absurd trivial hNot⟩
  made := by
    rintro _ ⟨⟩
    exact ⟨hWord, hShows⟩

theorem of_iff {word : Except Refusal Nat} (h : Encodes word good shows) (hIff : good ↔ fits) :
    Encodes word fits shows :=
  ⟨h.refused.trans (not_congr hIff), h.made⟩

/-- Fields that fit are encoded. -/
theorem accepted {word : Except Refusal Nat} (h : Encodes word fits shows) (hFits : fits) :
    ∃ w, word = .ok w := by
  cases word with
  | error e => exact absurd hFits (h.refused.mp ⟨e, rfl⟩)
  | ok w => exact ⟨w, rfl⟩

/-- A check in front of the rest of an encoder. -/
theorem check {x : Except Refusal α} (hBad : ¬ good → ∃ e, x = .error e)
    (hGood : good → ∃ a, x = .ok a ∧ Encodes (k a) fits shows) :
    Encodes (x >>= k) (good ∧ fits) shows := by
  by_cases h : good
  · obtain ⟨a, hOk, hRest⟩ := hGood h
    rw [bind_of_ok hOk]
    exact hRest.of_iff (and_iff_right h).symm
  · obtain ⟨e, rfl⟩ := hBad h
    exact ⟨⟨fun _ hAll => h hAll.1, fun _ => ⟨e, rfl⟩⟩, nofun⟩

/-- A register that is none of the 32 is refused, and nothing else about it. -/
theorem register {index : Int} {k : Nat → Except Refusal Nat}
    (h : ∀ n < 32, index = (n : Nat) → Encodes (k n) fits shows) :
    Encodes (Encode.register index >>= k) (IsRegister index ∧ fits) shows := by
  unfold IsRegister
  refine check (fun hBad => ⟨_, if_neg hBad⟩) fun hGood => ⟨_, if_pos hGood, ?_⟩
  exact h index.toNat (by omega) (by omega)

/-- So is an odd distance. -/
theorem evenOffset {offset : Int} {what : String} {k : Unit → Except Refusal Nat}
    (h : offset % 2 = 0 → Encodes (k ()) fits shows) :
    Encodes (Encode.evenOffset offset what >>= k) (offset % 2 = 0 ∧ fits) shows :=
  check (fun hOdd => ⟨_, if_neg hOdd⟩) fun hEven => ⟨(), if_pos hEven, h hEven⟩

/-- The number of an immediate in range is the signed view of its low bits. -/
theorem immediate {v : Int} {bits : Nat} {format : String} {k : Unit → Except Refusal Nat}
    (h : ∀ n < Nat.pow 2 (bits + 1), v = signExtend (n : Nat) (bits + 1) →
      Encodes (k ()) fits shows) :
    Encodes (Encode.immediate v (bits + 1) format >>= k) (InRange v (bits + 1) ∧ fits) shows := by
  have hSame : InRange v (bits + 1) ↔
      (signedRange (bits + 1)).1 ≤ v ∧ v ≤ (signedRange (bits + 1)).2 := by
    simp only [InRange, signedRange, Nat.add_sub_cancel, Nat.pow_eq, Nat.cast_pow, Nat.cast_ofNat]
    omega
  rw [hSame]
  refine check (fun hBad => ⟨_, if_neg hBad⟩) fun hGood => ⟨(), if_pos hGood, ?_⟩
  have hOk : Encode.immediate v (bits + 1) format = .ok () := immediate_ok hGood.1 hGood.2
  obtain ⟨n, hSmall, hIs⟩ := eq_signExtend_of_immediate hOk
  exact h n hSmall hIs

end Encodes

/-! The places of the fields. -/

/-- Cutting a number to some bits is taking its remainder. -/
theorem natCast_cut (v : Int) (bits : Nat) : (cut v bits : Int) = v % Nat.pow 2 bits :=
  Int.toNat_of_nonneg (Int.emod_nonneg v (by exact_mod_cast (Nat.two_pow_pos bits).ne'))

theorem bitField_cut (v : Int) (bits : Nat) : (cut v bits : Int) = bitField v 0 bits :=
  (natCast_cut v bits).trans (congrArg (· % (Nat.pow 2 bits : Int)) (Int.ediv_one v).symm)

theorem cut_lt (v : Int) (bits : Nat) : cut v bits < 2 ^ bits := by
  have hPos : (0 : Int) < Nat.pow 2 bits := by exact_mod_cast Nat.two_pow_pos bits
  have hLess := Int.emod_lt_of_pos v hPos
  have hLow := Int.emod_nonneg v hPos.ne'
  unfold cut
  rw [Nat.pow_eq] at *
  omega

/-- A word whose fields lie side by side. -/
structure SideBySide (w top rs2 rs1 funct3 rd opcode : Nat) : Prop where
  word : w = top * 0x2000000 + rs2 * 0x100000 + rs1 * 0x8000 + funct3 * 0x1000 + rd * 0x80 + opcode
  top : top < 0x80
  rs2 : rs2 < 0x20
  rs1 : rs1 < 0x20
  funct3 : funct3 < 8
  rd : rd < 0x20
  opcode : opcode < 0x80

namespace SideBySide

variable {w top rs2 rs1 funct3 rd opcode : Nat}

/-- Fields that stand side by side in a word are found there. -/
theorem shows (h : SideBySide w top rs2 rs1 funct3 rd opcode) :
    w < 0x100000000 ∧ bitField w 0 7 = opcode ∧ bitField w 7 5 = rd ∧ bitField w 12 3 = funct3 ∧
      bitField w 15 5 = rs1 ∧ bitField w 20 5 = rs2 ∧ bitField w 25 7 = top := by
  obtain ⟨hWord, hTop, hRs2, hRs1, hFunct3, hRd, hOpcode⟩ := h
  simp only [bitField_natCast, Nat.reducePow]
  refine ⟨?_, ?_, ?_, ?_, ?_, ?_, ?_⟩ <;> omega

/-- Immediates are put together of the fields that they stand in. -/
theorem immediate_i (h : SideBySide w top rs2 rs1 funct3 rd opcode) :
    Immediate.i w = signExtend (top * 0x20 + rs2 : Nat) 12 := by
  obtain ⟨hWord, hTop, hRs2, hRs1, hFunct3, hRd, hOpcode⟩ := h
  unfold Immediate.i
  refine congrArg (signExtend · 12) ?_
  omega

theorem immediate_s (h : SideBySide w top rs2 rs1 funct3 rd opcode) :
    Immediate.s w = signExtend (top * 0x20 + rd : Nat) 12 := by
  obtain ⟨-, -, hField, -, -, -, -⟩ := h.shows
  obtain ⟨hWord, hTop, hRs2, hRs1, hFunct3, hRd, hOpcode⟩ := h
  unfold Immediate.s
  rw [hField]
  refine congrArg (signExtend · 12) ?_
  omega

theorem immediate_u (h : SideBySide w top rs2 rs1 funct3 rd opcode) :
    Immediate.u w = s32 ((((top * 0x20 + rs2) * 0x20 + rs1) * 8 + funct3 : Nat) * 0x1000) := by
  obtain ⟨hWord, hTop, hRs2, hRs1, hFunct3, hRd, hOpcode⟩ := h
  unfold Immediate.u
  rw [bitField_natCast]
  refine congrArg (fun n : Nat => s32 (n * 0x1000)) ?_
  omega

end SideBySide

/-- The distance of a jump leaves its register alone. -/
theorem jumpWord_rd {d : Nat} (hD : d < 32) (n : Nat) : jumpWord d n / 0x80 % 0x20 = d := by
  unfold jumpWord Opcode.jal
  generalize n / 0x100000 % 2 = sign
  generalize n / 0x1000 % 0x100 = twelve
  generalize n / 0x800 % 2 = eleven
  generalize n / 2 % 0x400 = one
  omega

/-! One encoder after the other. -/

section Formats

variable (opcode rd funct3 rs1 rs2 funct7 imm offset : Int)

/-- The register format refuses what is no register, and its word shows all its fields. -/
theorem encodes_r :
    Encodes (r opcode rd funct3 rs1 rs2 funct7) (IsRegister rd ∧ IsRegister rs1 ∧ IsRegister rs2)
      fun w => bitField w 0 7 = bitField opcode 0 7 ∧ bitField w 7 5 = rd ∧
        bitField w 12 3 = bitField funct3 0 3 ∧ bitField w 15 5 = rs1 ∧ bitField w 20 5 = rs2 ∧
        bitField w 25 7 = bitField funct7 0 7 := by
  unfold r
  rw [← and_true (IsRegister rs2)]
  refine Encodes.register fun d hD hRd => Encodes.register fun n1 hN1 hRs1 =>
    Encodes.register fun n2 hN2 hRs2 => ?_
  obtain ⟨hWord, hFields⟩ := SideBySide.shows
    ⟨rfl, cut_lt funct7 7, hN2, hN1, cut_lt funct3 3, hD, cut_lt opcode 7⟩
  rw [bitField_cut, bitField_cut, bitField_cut, ← hRd, ← hRs1, ← hRs2] at hFields
  exact .of_ok hWord hFields

/-- The immediate covers the places of the second register and of the upper function field. -/
theorem encodes_i :
    Encodes (i opcode rd funct3 rs1 imm) (IsRegister rd ∧ IsRegister rs1 ∧ InRange imm 12)
      fun w => bitField w 0 7 = bitField opcode 0 7 ∧ bitField w 7 5 = rd ∧
        bitField w 12 3 = bitField funct3 0 3 ∧ bitField w 15 5 = rs1 ∧ Immediate.i w = imm := by
  unfold i
  rw [← and_true (InRange imm 12)]
  refine Encodes.register fun d hD hRd => Encodes.register fun n1 hN1 hRs1 =>
    Encodes.immediate fun n (hSmall : n < 0x1000) hImm => ?_
  have hWord : cut imm 12 * 0x100000 = n / 0x20 * 0x2000000 + n % 0x20 * 0x100000 := by
    rw [hImm, cut_signExtend, cut_ok hSmall]
    omega
  rw [hWord]
  have hLaid := SideBySide.mk rfl (show n / 0x20 < 0x80 by omega)
    (show n % 0x20 < 0x20 by omega) hN1 (cut_lt funct3 3) hD (cut_lt opcode 7)
  obtain ⟨hSize, hOpcode, hDest, hFunct3, hFirst, -⟩ := hLaid.shows
  rw [bitField_cut] at hOpcode hFunct3
  refine .of_ok hSize ⟨hOpcode, hDest.trans hRd.symm, hFunct3, hFirst.trans hRs1.symm, ?_⟩
  rw [hLaid.immediate_i, Nat.div_add_mod' n, ← hImm]

/-- The immediate covers the places of the destination and of the upper function field. -/
theorem encodes_s :
    Encodes (s opcode funct3 rs1 rs2 imm) (IsRegister rs1 ∧ IsRegister rs2 ∧ InRange imm 12)
      fun w => bitField w 0 7 = bitField opcode 0 7 ∧ bitField w 12 3 = bitField funct3 0 3 ∧
        bitField w 15 5 = rs1 ∧ bitField w 20 5 = rs2 ∧ Immediate.s w = imm := by
  unfold s
  rw [← and_true (InRange imm 12)]
  refine Encodes.register fun n1 hN1 hRs1 => Encodes.register fun n2 hN2 hRs2 =>
    Encodes.immediate fun n (hSmall : n < 0x1000) hImm => ?_
  have hHigh : slice imm 5 7 = n / 0x20 := by
    rw [hImm, slice_signExtend _ (by decide), slice_natCast]
    omega
  have hLow : slice imm 0 5 = n % 0x20 := by
    rw [hImm, slice_signExtend _ (by decide), slice_natCast]
    omega
  rw [hHigh, hLow]
  have hLaid := SideBySide.mk rfl (show n / 0x20 < 0x80 by omega) hN2 hN1 (cut_lt funct3 3)
    (show n % 0x20 < 0x20 by omega) (cut_lt opcode 7)
  obtain ⟨hSize, hOpcode, -, hFunct3, hFirst, hSecond, -⟩ := hLaid.shows
  rw [bitField_cut] at hOpcode hFunct3
  refine .of_ok hSize ⟨hOpcode, hFunct3, hFirst.trans hRs1.symm, hSecond.trans hRs2.symm, ?_⟩
  rw [hLaid.immediate_s, Nat.div_add_mod' n, ← hImm]

/-- A branch refuses what is no register, an odd distance and one out of range, and shows all else.
-/
theorem encodes_b :
    Encodes (b funct3 rs1 rs2 offset)
      (IsRegister rs1 ∧ IsRegister rs2 ∧ offset % 2 = 0 ∧ InRange offset 13)
      fun w => bitField w 0 7 = Opcode.branch ∧ bitField w 12 3 = bitField funct3 0 3 ∧
        bitField w 15 5 = rs1 ∧ bitField w 20 5 = rs2 ∧ Immediate.b w = offset := by
  unfold b
  rw [← and_true (InRange offset 13)]
  refine Encodes.register fun n1 hN1 hRs1 => Encodes.register fun n2 hN2 hRs2 =>
    Encodes.evenOffset fun hEven => Encodes.immediate fun n (hSmall : n < 0x2000) hImm => ?_
  rw [hImm, signExtend_emod_two (by decide)] at hEven
  rw [hImm]
  simp only [slice_signExtend _ (show 12 + 1 ≤ 13 by decide),
    slice_signExtend _ (show 5 + 6 ≤ 13 by decide), slice_signExtend _ (show 1 + 4 ≤ 13 by decide),
    slice_signExtend _ (show 11 + 1 ≤ 13 by decide), slice_natCast, Nat.reducePow]
  have hLaid : SideBySide (branchWord (cut funct3 3) n1 n2 n)
      (n / 0x1000 % 2 * 0x40 + n / 0x20 % 0x40) n2 n1 (cut funct3 3)
      (n / 2 % 0x10 * 2 + n / 0x800 % 2) Opcode.branch := by
    refine ⟨?_, by omega, hN2, hN1, cut_lt funct3 3, by omega, by decide⟩
    unfold branchWord
    ring
  obtain ⟨hSize, hOpcode, -, hFunct3, hFirst, hSecond, -⟩ := hLaid.shows
  rw [bitField_cut] at hFunct3
  refine .of_ok hSize ⟨hOpcode, hFunct3, hFirst.trans hRs1.symm, hSecond.trans hRs2.symm, ?_⟩
  obtain ⟨-, -, -, hBits⟩ :=
    branchWord_spec (cut_lt funct3 3) hN1 hN2 (Int.natCast_eq_zero.mp hEven) hSmall
  exact (immediate_b hSize).trans (congrArg (fun n : Nat => signExtend n 13) hBits)

/-- The immediate covers the places above the destination. -/
theorem encodes_u :
    Encodes (u opcode rd imm) (IsRegister rd)
      fun w => bitField w 0 7 = bitField opcode 0 7 ∧ bitField w 7 5 = rd ∧
        Immediate.u w = s32 (imm % 0x100000 * 0x1000) := by
  unfold u
  rw [← and_true (IsRegister rd)]
  refine Encodes.register fun d hD hRd => ?_
  have hCut : (cut imm 20 : Int) = imm % 0x100000 := natCast_cut imm 20
  have hSmall := cut_lt imm 20
  generalize cut imm 20 = n at hCut hSmall ⊢
  have hLaid : SideBySide (n * 0x1000 + d * 0x80 + cut opcode 7) (n / 0x2000) (n / 0x100 % 0x20)
      (n / 8 % 0x20) (n % 8) d (cut opcode 7) :=
    ⟨by omega, by omega, by omega, by omega, by omega, hD, cut_lt opcode 7⟩
  obtain ⟨hSize, hOpcode, hDest, -⟩ := hLaid.shows
  rw [bitField_cut] at hOpcode
  refine .of_ok hSize ⟨hOpcode, hDest.trans hRd.symm, ?_⟩
  have hWhole : ((n / 0x2000 * 0x20 + n / 0x100 % 0x20) * 0x20 + n / 8 % 0x20) * 8 + n % 8 = n := by
    omega
  rw [hLaid.immediate_u, hWhole, hCut]

/-- So does a jump. -/
theorem encodes_j :
    Encodes (j rd offset) (IsRegister rd ∧ offset % 2 = 0 ∧ InRange offset 21)
      fun w => bitField w 0 7 = Opcode.jal ∧ bitField w 7 5 = rd ∧ Immediate.j w = offset := by
  unfold j
  rw [← and_true (InRange offset 21)]
  refine Encodes.register fun d hD hRd => Encodes.evenOffset fun hEven =>
    Encodes.immediate fun n (hSmall : n < 0x200000) hImm => ?_
  rw [hImm, signExtend_emod_two (by decide)] at hEven
  rw [hImm]
  simp only [slice_signExtend _ (show 20 + 1 ≤ 21 by decide),
    slice_signExtend _ (show 1 + 10 ≤ 21 by decide),
    slice_signExtend _ (show 11 + 1 ≤ 21 by decide),
    slice_signExtend _ (show 12 + 8 ≤ 21 by decide), slice_natCast, Nat.reducePow]
  obtain ⟨hSize, hOpcode, hBits⟩ := jumpWord_spec hD (Int.natCast_eq_zero.mp hEven) hSmall
  refine .of_ok hSize ⟨?_, ?_, (immediate_j hSize).trans ?_⟩
  · rw [← Nat.div_one (jumpWord d n)] at hOpcode
    exact (bitField_natCast _ 0 7).trans (congrArg Nat.cast hOpcode)
  · rw [hRd]
    exact (bitField_natCast _ 7 5).trans (congrArg Nat.cast (jumpWord_rd hD n))
  · exact congrArg (fun n : Nat => signExtend n 21) hBits

end Formats

end Encode

namespace Mnemonic

variable {m : Mnemonic}

/-- All branches have one opcode. -/
theorem opcode_of_b (hFormat : m.format = .b) : m.opcode = Opcode.branch := by
  cases m <;> first | rfl | cases hFormat

theorem opcode_of_j (hFormat : m.format = .j) : m.opcode = Opcode.jal := by
  cases m <;> first | rfl | cases hFormat

end Mnemonic

namespace Instruction

/-! The decoder finds the immediate of a word that has been encoded. -/

section Decoded

variable {m : Mnemonic} {rd rs1 rs2 imm : Int} {w : Nat}

/-- A field that shows a number of its width is the number. -/
theorem field_eq {n low width : Nat} (h : bitField w low width = bitField n 0 width)
    (hSmall : n < 2 ^ width) : w / 2 ^ low % 2 ^ width = n := by
  rw [bitField_natCast, bitField_natCast, Nat.pow_zero, Nat.div_one, Nat.mod_eq_of_lt hSmall] at h
  exact Int.natCast_inj.mp h

/-- The low bits of an opcode are the opcode. -/
theorem opcode_fieldsOf (h : bitField w 0 7 = bitField m.opcode 0 7) :
    (fieldsOf w).opcode = m.opcode := by
  have hField := field_eq h m.opcode_lt
  rwa [Nat.pow_zero, Nat.div_one] at hField

theorem rd_withMnemonic_of_format (f : Instruction) (hFormat : m.format = .i ∨ m.format = .u) :
    (f.withMnemonic m).rd = f.rd := by
  cases m <;> first | rfl | rcases hFormat with hFormat | hFormat <;> cases hFormat

/-- Two registers and an immediate. -/
theorem decode_i (hFormat : m.format = .i) (hShifts : m.shifts = false)
    (hSystem : m.kind ≠ .system) (h : Encode.i m.opcode rd m.funct3 rs1 imm = .ok w) :
    (decode w).mnemonic = m ∧ (decode w).rd = rd ∧ (decode w).rs1 = rs1 ∧ (decode w).imm = imm := by
  obtain ⟨hWord, hOpcode, hRd, hFunct3, hRs1, hImm⟩ :=
    (Encode.encodes_i m.opcode rd m.funct3 rs1 imm).made w h
  have hSpells : (fieldsOf w).Spells m := spells_of_i hFormat hShifts hSystem
    (opcode_fieldsOf hOpcode) (field_eq hFunct3 m.funct3_lt)
  obtain ⟨hSame, hValue⟩ := (fieldsOf w).withMnemonic_i hFormat hShifts hSystem
  have hDest := rd_withMnemonic_of_format (fieldsOf w) (.inl hFormat)
  rw [decode_of_spells hWord hSpells, mnemonic_withMnemonic, hDest, hSame, hValue, word_fieldsOf]
  rw [bitField_natCast] at hRd hRs1
  exact ⟨rfl, hRd, hRs1, hImm⟩

/-- A register and twenty bits. -/
theorem decode_u (hFormat : m.format = .u) (h : Encode.u m.opcode rd imm = .ok w) :
    (decode w).mnemonic = m ∧ (decode w).rd = rd ∧
      (decode w).imm = s32 (imm % 0x100000 * 0x1000) := by
  obtain ⟨hWord, hOpcode, hRd, hImm⟩ := (Encode.encodes_u m.opcode rd imm).made w h
  have hSpells := spells_of_u hFormat (opcode_fieldsOf hOpcode)
  have hDest := rd_withMnemonic_of_format (fieldsOf w) (.inr hFormat)
  rw [decode_of_spells hWord hSpells, mnemonic_withMnemonic, hDest, imm_withMnemonic_u _ hFormat,
    word_fieldsOf]
  rw [bitField_natCast] at hRd
  exact ⟨rfl, hRd, hImm⟩

/-- A register and an amount in the place of a second one. -/
theorem decode_shift (hShifts : m.shifts = true)
    (h : Encode.r m.opcode rd m.funct3 rs1 rs2 m.funct7 = .ok w) :
    (decode w).mnemonic = m ∧ (decode w).imm = rs2 := by
  obtain ⟨hWord, hOpcode, -, hFunct3, -, hRs2, hFunct7⟩ :=
    (Encode.encodes_r m.opcode rd m.funct3 rs1 rs2 m.funct7).made w h
  have hFields := opcode_fieldsOf hOpcode
  have hThird := field_eq hFunct3 m.funct3_lt
  have hSeventh := field_eq hFunct7 m.funct7_lt
  have hSpells : (fieldsOf w).Spells m := by
    cases m <;> first
      | cases hShifts; done
      | exact spells_of_fields nofun nofun hFields (fun _ _ => hThird) fun _ => .inl hSeventh
  rw [decode_of_spells hWord hSpells, mnemonic_withMnemonic, imm_withMnemonic_shift _ hShifts]
  rw [bitField_natCast] at hRs2
  exact ⟨rfl, hRs2⟩

end Decoded

/-- The fields of an instruction, encoded again in the format of its mnemonic. The amount of a
constant shift takes the place of the second register, and the upper bits of a constant leave out
the twelve below them. -/
def encoded (ins : Instruction) : Except Refusal Nat :=
  match ins.mnemonic with
  | .slli | .srli | .srai => Encode.r ins.opcode ins.rd ins.funct3 ins.rs1 ins.imm ins.funct7
  | _ => match ins.format with
    | .r => Encode.r ins.opcode ins.rd ins.funct3 ins.rs1 ins.rs2 ins.funct7
    | .i => Encode.i ins.opcode ins.rd ins.funct3 ins.rs1 ins.imm
    | .s => Encode.s ins.opcode ins.funct3 ins.rs1 ins.rs2 ins.imm
    | .b => Encode.b ins.funct3 ins.rs1 ins.rs2 ins.imm
    | .u => Encode.u ins.opcode ins.rd (ins.imm / 0x1000)
    | .j => Encode.j ins.rd ins.imm

section Formats

variable (f : Instruction) {m : Mnemonic}

/-- An instruction with two sources, or with the amount of a shift, is encoded in the register
format. -/
theorem encoded_r (hFormat : m.format = .r ∨ m.shifts = true) :
    (f.withMnemonic m).encoded = Encode.r f.opcode f.rd f.funct3 f.rs1 f.rs2 f.funct7 := by
  cases m <;> first
    | simp only [encoded, withMnemonic, format, Mnemonic.format]; done
    | rcases hFormat with hFormat | hFormat <;> cases hFormat

/-- One with an immediate is encoded in the immediate format, -/
theorem encoded_i (hFormat : m.format = .i) (hShifts : m.shifts = false)
    (hSystem : m.kind ≠ .system) :
    (f.withMnemonic m).encoded = Encode.i f.opcode f.rd f.funct3 f.rs1 (Immediate.i f.word) := by
  cases m <;> first
    | simp only [encoded, withMnemonic, format, Mnemonic.format]; done
    | cases hFormat; done
    | cases hShifts; done
    | exact absurd rfl hSystem

/-- as are the instructions that end a run. -/
theorem encoded_system (hSystem : m.kind = .system) :
    (f.withMnemonic m).encoded =
      Encode.i f.opcode f.rd f.funct3 f.rs1 (if m = .ebreak then 1 else 0) := by
  cases m <;> first
    | simp only [encoded, withMnemonic, format, Mnemonic.format, reduceCtorEq, if_false, if_true]; done
    | cases hSystem

/-- A store is encoded in its own format, -/
theorem encoded_s (hFormat : m.format = .s) :
    (f.withMnemonic m).encoded =
      Encode.s f.opcode f.funct3 f.rs1 f.rs2 (Immediate.s f.word) := by
  cases m <;> first
    | simp only [encoded, withMnemonic, format, Mnemonic.format]; done
    | cases hFormat

/-- a branch in that of branches, -/
theorem encoded_b (hFormat : m.format = .b) :
    (f.withMnemonic m).encoded = Encode.b f.funct3 f.rs1 f.rs2 (Immediate.b f.word) := by
  cases m <;> first
    | simp only [encoded, withMnemonic, format, Mnemonic.format]; done
    | cases hFormat

/-- one with an upper immediate in that of these, -/
theorem encoded_u (hFormat : m.format = .u) :
    (f.withMnemonic m).encoded = Encode.u f.opcode f.rd (Immediate.u f.word / 0x1000) := by
  cases m <;> first
    | simp only [encoded, withMnemonic, format, Mnemonic.format]; done
    | cases hFormat

/-- and a jump in its own. -/
theorem encoded_j (hFormat : m.format = .j) :
    (f.withMnemonic m).encoded = Encode.j f.rd (Immediate.j f.word) := by
  cases m <;> first
    | simp only [encoded, withMnemonic, format, Mnemonic.format]; done
    | cases hFormat

end Formats

/-- The immediate of a system instruction is the one bit in which the two differ. -/
theorem immediate_of_system {w : Nat} {m : Mnemonic} (hWord : w < 0x100000000)
    (hSpells : (fieldsOf w).Spells m) (hSystem : m.kind = .system) :
    Immediate.i w = if m = .ebreak then 1 else 0 := by
  obtain ⟨-, -, hFunct7, hRs2⟩ := hSpells.system hSystem
  change w / 0x2000000 % 0x80 = 0 at hFunct7
  change w / 0x100000 % 0x20 = _ at hRs2
  have hTop : (w : Int) / 0x100000 = (if m = .ebreak then 1 else 0 : Nat) := by omega
  unfold Immediate.i
  rw [hTop]
  split <;> rfl

/-- The twenty bits of an upper immediate survive the signed view of the word that they head. -/
theorem cut_immediate_u {w : Nat} (hWord : w < 0x100000000) :
    Encode.cut (Immediate.u w / 0x1000) 20 = w / 0x1000 := by
  have hField : bitField w 12 20 = (w / 0x1000 : Nat) :=
    (bitField_natCast w 12 20).trans (congrArg Nat.cast (Nat.mod_eq_of_lt (by omega)))
  have hSame : s32 ((w / 0x1000 : Nat) * 0x1000) % 0x100000000 =
      (w / 0x1000 : Nat) * 0x1000 % 0x100000000 := Int.bmod_emod
  have hCut : (Encode.cut (Immediate.u w / 0x1000) 20 : Int) = Immediate.u w / 0x1000 % 0x100000 :=
    Encode.natCast_cut _ 20
  unfold Immediate.u at hCut ⊢
  rw [hField] at hCut ⊢
  omega

/-- A legal instruction that is encoded again becomes its word. -/
theorem encoded_decode {w : Nat} (hWord : w < 0x100000000) (hLegal : (decode w).kind ≠ .illegal) :
    (decode w).encoded = .ok w := by
  rcases decode_cases w with hIllegal | ⟨m, hSpelled, hDecoded⟩
  · rw [hIllegal] at hLegal
    exact absurd rfl hLegal
  rw [u32_natCast w hWord] at hSpelled hDecoded
  have hSpells := spells_of_mnemonic? hSpelled
  have hOpcode : w % 0x80 = m.opcode := hSpells.opcode
  rw [hDecoded]
  by_cases hR : m.format = .r ∨ m.shifts = true
  · have hTop : (fieldsOf w).funct7 = w / 0x2000000 := Nat.mod_eq_of_lt (by omega)
    rw [encoded_r _ hR, hTop]
    exact Encode.r_fields hWord
  obtain ⟨hNotR, hShifts⟩ := not_or.mp hR
  by_cases hSystem : m.kind = .system
  · rw [encoded_system _ hSystem, ← immediate_of_system hWord hSpells hSystem]
    exact Encode.i_fields hWord
  cases hFormat : m.format with
  | r => exact absurd hFormat hNotR
  | i =>
      rw [encoded_i _ hFormat (Bool.eq_false_of_not_eq_true hShifts) hSystem]
      exact Encode.i_fields hWord
  | s =>
      rw [encoded_s _ hFormat]
      exact Encode.s_fields hWord
  | b =>
      rw [encoded_b _ hFormat]
      exact Encode.b_fields hWord (hOpcode.trans (Mnemonic.opcode_of_b hFormat))
  | u =>
      have hFields := Encode.u_fields hWord
      rw [encoded_u _ hFormat]
      unfold Encode.u at hFields ⊢
      rw [word_fieldsOf, cut_immediate_u hWord]
      rwa [Encode.cut_ok (show w / 0x1000 < 0x100000 by omega)] at hFields
  | j =>
      rw [encoded_j _ hFormat]
      exact Encode.j_fields hWord (hOpcode.trans (Mnemonic.opcode_of_j hFormat))

end Instruction

open Encode

/-- Encoders and the decoder are inverse. -/
theorem encode_decode_inverse :
    (∀ opcode rd funct3 rs1 rs2 funct7 : Int,
      Encodes (r opcode rd funct3 rs1 rs2 funct7) (IsRegister rd ∧ IsRegister rs1 ∧ IsRegister rs2)
        fun w => bitField w 0 7 = bitField opcode 0 7 ∧ bitField w 7 5 = rd ∧
          bitField w 12 3 = bitField funct3 0 3 ∧ bitField w 15 5 = rs1 ∧ bitField w 20 5 = rs2 ∧
          bitField w 25 7 = bitField funct7 0 7) ∧
    (∀ opcode rd funct3 rs1 imm : Int,
      Encodes (i opcode rd funct3 rs1 imm) (IsRegister rd ∧ IsRegister rs1 ∧ InRange imm 12)
        fun w => bitField w 0 7 = bitField opcode 0 7 ∧ bitField w 7 5 = rd ∧
          bitField w 12 3 = bitField funct3 0 3 ∧ bitField w 15 5 = rs1 ∧ Immediate.i w = imm) ∧
    (∀ opcode funct3 rs1 rs2 imm : Int,
      Encodes (s opcode funct3 rs1 rs2 imm) (IsRegister rs1 ∧ IsRegister rs2 ∧ InRange imm 12)
        fun w => bitField w 0 7 = bitField opcode 0 7 ∧ bitField w 12 3 = bitField funct3 0 3 ∧
          bitField w 15 5 = rs1 ∧ bitField w 20 5 = rs2 ∧ Immediate.s w = imm) ∧
    (∀ funct3 rs1 rs2 offset : Int,
      Encodes (b funct3 rs1 rs2 offset)
        (IsRegister rs1 ∧ IsRegister rs2 ∧ offset % 2 = 0 ∧ InRange offset 13)
        fun w => bitField w 0 7 = Opcode.branch ∧ bitField w 12 3 = bitField funct3 0 3 ∧
          bitField w 15 5 = rs1 ∧ bitField w 20 5 = rs2 ∧ Immediate.b w = offset) ∧
    (∀ opcode rd imm : Int,
      Encodes (u opcode rd imm) (IsRegister rd)
        fun w => bitField w 0 7 = bitField opcode 0 7 ∧ bitField w 7 5 = rd ∧
          Immediate.u w = s32 (imm % 0x100000 * 0x1000)) ∧
    (∀ rd offset : Int,
      Encodes (j rd offset) (IsRegister rd ∧ offset % 2 = 0 ∧ InRange offset 21)
        fun w => bitField w 0 7 = Opcode.jal ∧ bitField w 7 5 = rd ∧ Immediate.j w = offset) ∧
    ∀ w : Nat, w < 0x100000000 → (Instruction.decode w).kind ≠ .illegal →
      (Instruction.decode w).encoded = .ok w :=
  ⟨encodes_r, encodes_i, encodes_s, encodes_b, encodes_u, encodes_j,
    fun _ hWord hLegal => Instruction.encoded_decode hWord hLegal⟩

/-- A branch backwards is encoded and decoded; one by an odd distance is refused. -/
theorem encode_decode_inverse_of_branch :
    b 0 1 2 (-4) = .ok 0xfe208ee3 ∧ Immediate.b (0xfe208ee3 : Nat) = -4 ∧
      (0xfe208ee3 < 0x100000000 ∧ (Instruction.decode (0xfe208ee3 : Nat)).kind ≠ .illegal ∧
        (Instruction.decode (0xfe208ee3 : Nat)).encoded = .ok 0xfe208ee3) ∧
      ¬ (IsRegister 1 ∧ IsRegister 2 ∧ (3 : Int) % 2 = 0 ∧ InRange 3 13) ∧
      ∃ e, b 0 1 2 3 = .error e := by
  obtain ⟨-, -, -, hBranch, -, -, hDecode⟩ := encode_decode_inverse
  have hMade : b 0 1 2 (-4) = .ok 0xfe208ee3 := rfl
  have hLegal : (Instruction.decode (0xfe208ee3 : Nat)).kind ≠ .illegal := by decide
  have hOdd : ¬ (IsRegister 1 ∧ IsRegister 2 ∧ (3 : Int) % 2 = 0 ∧ InRange 3 13) :=
    fun h => absurd h.2.2.1 (by decide)
  obtain ⟨-, -, -, -, -, hImm⟩ := (hBranch 0 1 2 (-4)).made _ hMade
  exact ⟨hMade, hImm, ⟨by decide, hLegal, hDecode _ (by decide) hLegal⟩, hOdd,
    (hBranch 0 1 2 3).refused.mpr hOdd⟩

end AccelPipe

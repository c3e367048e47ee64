import AccelPipe.Instruction.Render
import AccelPipe.Proofs.Instruction.Encoded

/-! The bits of a word that its text does not tell. Setting them to zero changes neither the text
of the instruction nor what it reads. -/
namespace AccelPipe.Instruction

/-- Position and number of the bits that are not told: the immediate of an instruction that has
none, and the registers of one that reads none. -/
def untold (ins : Instruction) : Nat × Nat :=
  match ins.mnemonic with
  | .relu | .fir => (20, 12)
  | .firClr => (15, 17)
  | .pool | .poolMax | .poolAvg => if ins.slides then (15, 10) else (0, 0)
  | _ => (0, 0)

/-- A word with some of its bits set to zero. -/
def withoutBits (w : Nat) (bits : Nat × Nat) : Nat :=
  w - w / 2 ^ bits.1 % 2 ^ bits.2 * 2 ^ bits.1

/-- A word as far as its text tells it. -/
def told (w : Nat) : Nat := withoutBits w (decode w).untold

/-- Two instructions that are written and scheduled alike. -/
structure Alike (a b : Instruction) : Prop where
  text : a.text = b.text
  kind : a.kind = b.kind
  mnemonic : a.mnemonic = b.mnemonic
  sources : a.sources = b.sources

theorem Alike.refl (a : Instruction) : Alike a a := ⟨rfl, rfl, rfl, rfl⟩

theorem alike_of_operandTexts {a b : Instruction} (hMnemonic : a.mnemonic = b.mnemonic)
    (hSlides : a.slides = b.slides) (hLegal : b.mnemonic ≠ .illegal)
    (hOps : a.operandTexts = b.operandTexts) (hSources : a.sources = b.sources) : Alike a b := by
  have hKind : a.kind = b.kind := congrArg Mnemonic.kind hMnemonic
  refine ⟨?_, hKind, hMnemonic, hSources⟩
  have hName : a.nameText = b.nameText := by
    unfold nameText
    rw [hKind, hSlides, hMnemonic]
  unfold text
  rw [hMnemonic, hName, hOps]
  split
  · exact absurd ‹_› hLegal
  · rfl
  · rfl
  · rfl

section Bits

variable {w : Nat}

theorem withoutBits_none (w : Nat) : withoutBits w (0, 0) = w := by
  change w - w / 1 % 1 * 1 = w
  omega

theorem withoutBits_immediate (hWord : w < 0x100000000) :
    withoutBits w (20, 12) = w % 0x100000 := by
  change w - w / 0x100000 % 0x1000 * 0x100000 = w % 0x100000
  omega

theorem withoutBits_first (hWord : w < 0x100000000) :
    withoutBits w (15, 17) = w % 0x8000 := by
  change w - w / 0x8000 % 0x20000 * 0x8000 = w % 0x8000
  omega

theorem withoutBits_registers (hWord : w < 0x100000000) :
    withoutBits w (15, 10) = w / 0x2000000 * 0x2000000 + w % 0x8000 := by
  change w - w / 0x8000 % 0x400 * 0x8000 = _
  rw [show w / 0x2000000 = w / 0x8000 / 0x400 by rw [Nat.div_div_eq_div_mul]]
  omega

end Bits

section Fields

variable {v w : Nat} {m : Mnemonic}

/-- Opcode, destination and variant are the low bits of a word. -/
theorem fieldsOf_low (h : v % 0x8000 = w % 0x8000) :
    (fieldsOf v).opcode = (fieldsOf w).opcode ∧ (fieldsOf v).rd = (fieldsOf w).rd ∧
      (fieldsOf v).funct3 = (fieldsOf w).funct3 := by
  change v % 0x80 = w % 0x80 ∧ v / 0x80 % 0x20 = w / 0x80 % 0x20 ∧
    v / 0x1000 % 8 = w / 0x1000 % 8
  refine ⟨?_, ?_, ?_⟩ <;> omega

theorem spells_of_low (h : (fieldsOf w).Spells m) (hLow : v % 0x8000 = w % 0x8000)
    (hKind : m.kind ≠ .system)
    (hFunct7 : m.format = .i ∧ m.shifts = false ∨ (fieldsOf v).funct7 = (fieldsOf w).funct7) :
    (fieldsOf v).Spells m := by
  obtain ⟨hOpcode, -, hFunct3⟩ := fieldsOf_low hLow
  refine ⟨h.legal, hOpcode.trans h.opcode, fun hU hJ => hFunct3.trans (h.funct3 hU hJ), ?_, ?_,
    fun hSystem => absurd hSystem hKind⟩
  · intro hFormat hPool
    rcases hFunct7 with ⟨hImm, hShift⟩ | hSame
    · rw [hImm, hShift] at hFormat
      rcases hFormat with hFormat | hFormat <;> cases hFormat
    · exact hSame.trans (h.funct7 hFormat hPool)
  · intro hPool
    rcases hFunct7 with ⟨hImm, -⟩ | hSame
    · cases m <;> first | cases hImm; done | cases hPool
    · exact hSame ▸ h.slides hPool

/-- A word in which all bits that its text does not tell are zero. -/
structure FullyTold (m : Mnemonic) (w : Nat) : Prop where
  word : w < 0x100000000
  spells : (fieldsOf w).Spells m
  immediate : m = .relu ∨ m = .fir → w / 0x100000 = 0
  first : m = .firClr → w / 0x8000 = 0
  registers : m.kind = .pool → (fieldsOf w).slides = true →
    (fieldsOf w).rs1 = 0 ∧ (fieldsOf w).rs2 = 0

section Told

variable (hWord : w < 0x100000000) (h : (fieldsOf w).Spells m)
include hWord h

theorem told_of_immediate (hIs : m = .relu ∨ m = .fir) :
    FullyTold m (told w) ∧
      Alike ((fieldsOf (told w)).withMnemonic m) ((fieldsOf w).withMnemonic m) := by
  have hTold : told w = w % 0x100000 := by
    unfold told
    rw [decode_of_spells hWord h]
    rcases hIs with rfl | rfl <;> exact withoutBits_immediate hWord
  have hLow : told w % 0x8000 = w % 0x8000 := by omega
  obtain ⟨-, hRd, -⟩ := fieldsOf_low hLow
  have hRs1 : (fieldsOf (told w)).rs1 = (fieldsOf w).rs1 := by
    change told w / 0x8000 % 0x20 = w / 0x8000 % 0x20
    omega
  refine ⟨⟨by omega, ?_, fun _ => by omega, ?_, ?_⟩, ?_⟩
  · rcases hIs with rfl | rfl <;> exact spells_of_low h hLow nofun (.inl ⟨rfl, rfl⟩)
  · rcases hIs with rfl | rfl <;> nofun
  · rcases hIs with rfl | rfl <;> nofun
  · have hOps := congrArg₂ (fun rd rs1 => [registerName rd, registerName rs1]) hRd hRs1
    have hSources := congrArg (fun rs1 => [(Operand.rs1, rs1)]) hRs1
    rcases hIs with rfl | rfl <;>
      exact alike_of_operandTexts rfl rfl nofun hOps hSources

theorem told_of_first (hIs : m = .firClr) :
    FullyTold m (told w) ∧
      Alike ((fieldsOf (told w)).withMnemonic m) ((fieldsOf w).withMnemonic m) := by
  subst hIs
  have hTold : told w = w % 0x8000 := by
    unfold told
    rw [decode_of_spells hWord h]
    exact withoutBits_first hWord
  have hLow : told w % 0x8000 = w % 0x8000 := by omega
  obtain ⟨-, hRd, -⟩ := fieldsOf_low hLow
  refine ⟨⟨by omega, spells_of_low h hLow nofun (.inl ⟨rfl, rfl⟩), nofun, fun _ => by omega,
    nofun⟩, ?_⟩
  exact alike_of_operandTexts rfl rfl nofun (congrArg (fun rd => [registerName rd]) hRd) rfl

theorem told_of_slides (hKind : m.kind = .pool) (hSlides : (fieldsOf w).slides = true) :
    FullyTold m (told w) ∧
      Alike ((fieldsOf (told w)).withMnemonic m) ((fieldsOf w).withMnemonic m) := by
  have hTold : told w = w / 0x2000000 * 0x2000000 + w % 0x8000 := by
    have hUntold : ((fieldsOf w).withMnemonic m).untold = (15, 10) := by
      cases m <;> first | cases hKind; done | exact if_pos hSlides
    unfold told
    rw [decode_of_spells hWord h, hUntold]
    exact withoutBits_registers hWord
  have hLow : told w % 0x8000 = w % 0x8000 := by omega
  obtain ⟨-, hRd, -⟩ := fieldsOf_low hLow
  have hFunct7 : (fieldsOf (told w)).funct7 = (fieldsOf w).funct7 := by
    change told w / 0x2000000 % 0x80 = w / 0x2000000 % 0x80
    omega
  have hNone : (fieldsOf (told w)).rs1 = 0 ∧ (fieldsOf (told w)).rs2 = 0 := by
    change told w / 0x8000 % 0x20 = 0 ∧ told w / 0x100000 % 0x20 = 0
    omega
  have hSame : (fieldsOf (told w)).slides = (fieldsOf w).slides := by
    unfold slides
    rw [hFunct7]
  have hNames : ∀ f : Instruction, f.slides = true →
      (f.withMnemonic m).slides = true ∧ (f.withMnemonic m).operandTexts = [registerName f.rd] ∧
        (f.withMnemonic m).sources = [] := by
    intro f hF
    cases m <;> first | cases hKind; done | exact ⟨hF, if_pos hF, if_pos hF⟩
  obtain ⟨hFirst, hFirstOps, hFirstSources⟩ := hNames _ (hSame.trans hSlides)
  obtain ⟨hLast, hLastOps, hLastSources⟩ := hNames _ hSlides
  refine ⟨⟨by omega, spells_of_low h hLow ?_ (.inr hFunct7), ?_, ?_, fun _ _ => hNone⟩, ?_⟩
  · rw [hKind]
    nofun
  · rintro (rfl | rfl) <;> cases hKind
  · rintro rfl
    cases hKind
  · refine alike_of_operandTexts ?_ (hFirst.trans hLast.symm) ?_ ?_
      (hFirstSources.trans hLastSources.symm)
    · rw [mnemonic_withMnemonic, mnemonic_withMnemonic]
    · rw [mnemonic_withMnemonic]
      exact h.legal
    · rw [hFirstOps, hLastOps, hRd]

/-- What is not told makes no difference. -/
theorem told_fullyTold :
    FullyTold m (told w) ∧
      Alike ((fieldsOf (told w)).withMnemonic m) ((fieldsOf w).withMnemonic m) := by
  by_cases hImmediate : m = .relu ∨ m = .fir
  · exact told_of_immediate hWord h hImmediate
  by_cases hFirst : m = .firClr
  · exact told_of_first hWord h hFirst
  by_cases hPool : m.kind = .pool ∧ (fieldsOf w).slides = true
  · exact told_of_slides hWord h hPool.1 hPool.2
  have hTold : told w = w := by
    have hUntold : ((fieldsOf w).withMnemonic m).untold = (0, 0) := by
      cases m
      case relu => exact absurd (.inl rfl) hImmediate
      case fir => exact absurd (.inr rfl) hImmediate
      case firClr => exact absurd rfl hFirst
      case pool | poolMax | poolAvg => exact if_neg fun hSlides => hPool ⟨rfl, hSlides⟩
      all_goals rfl
    unfold told
    rw [decode_of_spells hWord h, hUntold, withoutBits_none]
  rw [hTold]
  refine ⟨⟨hWord, h, fun hIs => absurd hIs hImmediate, fun hIs => absurd hIs hFirst,
    fun hKind hSlides => absurd ⟨hKind, hSlides⟩ hPool⟩, Alike.refl _⟩

end Told

end Fields

end AccelPipe.Instruction

import AccelPipe.Proofs.Assembly.Lines
import AccelPipe.Proofs.Assembly.Written

/-! Assembling the text of decoded words gives the words again. Only the bits that no text tells
are lost, and no instruction means anything by them. -/
namespace AccelPipe

open Assembly Instruction

/-! Every instruction is written as a plain statement. -/

theorem plain_operandTexts (ins : Instruction) :
    ∀ text ∈ ins.operandTexts, Plain text.toList := by
  have hHex : ∀ n : Nat, Plain (Text.hex n).toList := plain_zeroFilled 0
  have hMemory : ∀ v r, Plain (Text.decimal v ++ "(" ++ registerName r ++ ")").toList :=
    plain_memoryText
  unfold operandTexts
  dsimp only
  repeat' first
    | with_reducible exact plain_registerName _
    | with_reducible exact plain_decimal _
    | with_reducible exact plain_signedDecimal _
    | with_reducible exact hHex _
    | with_reducible exact hMemory _ _
    | with_reducible exact List.forall_mem_nil _
    | refine List.forall_mem_cons.mpr ⟨?_, ?_⟩
    | split

theorem namesInstruction_nameText (ins : Instruction) :
    NamesInstruction ins.nameText.toList := by
  have hName : ins.nameText = ins.mnemonic.name ∨ ins.nameText = ins.mnemonic.name ++ ".n" := by
    unfold nameText
    split
    · split
      · exact .inr rfl
      · exact .inl rfl
    · exact .inl rfl
  exact namesInstruction_of_mnemonic hName

theorem text_eq_statementText {ins : Instruction} (hLegal : ins.mnemonic ≠ .illegal) :
    ins.text.toList =
      statementText ins.nameText.toList (ins.operandTexts.map String.toList) := by
  have hSystem : ins.mnemonic = .ecall ∨ ins.mnemonic = .ebreak →
      ins.mnemonic.name.toList =
        statementText ins.nameText.toList (ins.operandTexts.map String.toList) := by
    intro hCall
    have hNone : ins.operandTexts = [] := by
      unfold operandTexts
      rcases hCall with hCall | hCall <;> rw [hCall]
    have hName : ins.nameText = ins.mnemonic.name := by
      unfold nameText kind
      rcases hCall with hCall | hCall <;> rw [hCall] <;> rfl
    rw [hNone, hName]
    rfl
  unfold text
  split
  · exact absurd ‹_› hLegal
  · exact hSystem (.inl ‹_›)
  · exact hSystem (.inr ‹_›)
  · rename_i hCall hBreak
    have hSome : ins.operandTexts ≠ [] := by
      unfold operandTexts
      dsimp only
      repeat' first
        | exact List.cons_ne_nil _ _
        | exact absurd ‹_› hLegal
        | exact absurd ‹_› hCall
        | exact absurd ‹_› hBreak
        | split
    unfold statementText
    rw [if_neg (by simpa using hSome), String.toList_append, String.toList_append,
      String.toList_intercalate, List.append_assoc]
    rfl

theorem text_illegal {ins : Instruction} (hIllegal : ins.mnemonic = .illegal) :
    ins.text.toList = statementText ".word".toList [(Text.hexAddress ins.word).toList] := by
  have hFront : ".word ".toList = ".word".toList ++ [' '] := by decide
  unfold text
  rw [hIllegal]
  dsimp only
  unfold wordText statementText
  rw [String.toList_append, hFront, if_neg nofun, List.intercalate_singleton, List.append_assoc,
    List.singleton_append]

/-- An illegal word is written as data. -/
theorem stands_illegal {ins : Instruction} (hWord : ins.word < 0x100000000)
    (hIllegal : ins.mnemonic = .illegal) : Stands ins.text.toList ins.word := by
  have hToken : Plain (Text.hexAddress ins.word).toList := plain_zeroFilled 10 ins.word
  have hOps : ∀ token ∈ [(Text.hexAddress ins.word).toList], Plain token := by
    simpa using hToken
  have hName : Plain ".word".toList := ⟨nofun, List.all_eq_true.mp (by decide)⟩
  rw [text_illegal hIllegal]
  refine stands_statementText hName hOps (by decide) rfl ?_ fun address => ?_
  · unfold statementSize
    rw [if_pos rfl, operands_intercalate hOps]
    rfl
  · rw [if_pos rfl]
    unfold emitData
    rw [List.mapM_cons, value_ok hToken (Text.readInteger_zeroFilled 10 ins.word)]
    change Except.ok [u32 ins.word] = _
    rw [u32_natCast _ hWord]

/-- A legal one as its name and its operands. -/
theorem stands_legal {w : Nat} {m : Mnemonic} (hFull : FullyTold m w) :
    Stands ((fieldsOf w).withMnemonic m).text.toList w := by
  have hNames := namesInstruction_nameText ((fieldsOf w).withMnemonic m)
  have hLegal : ((fieldsOf w).withMnemonic m).mnemonic ≠ .illegal := by
    rw [mnemonic_withMnemonic]
    exact hFull.spells.legal
  have hOps := plain_operandTexts ((fieldsOf w).withMnemonic m)
  rw [text_eq_statementText hLegal]
  exact stands_instruction hNames (by simpa using hOps) fun address =>
    emitInstruction_written hFull rfl rfl

/-- The text of a word stands for what it tells of it. -/
theorem stands_text {w : Nat} (hWord : w < 0x100000000) :
    Stands (decode w).text.toList (told w) ∧ (decode (told w)).Alike (decode w) := by
  rcases decode_cases w with hIllegal | ⟨m, hSpelled, hLegal⟩
  · rw [u32_natCast w hWord] at hIllegal
    have hTold : told w = w := by
      unfold told
      rw [hIllegal]
      exact withoutBits_none w
    have hText : Stands (fieldsOf w).text.toList (fieldsOf w).word := stands_illegal hWord rfl
    rw [hTold]
    refine ⟨?_, Alike.refl _⟩
    rw [hIllegal]
    exact hText
  · rw [u32_natCast w hWord] at hSpelled hLegal
    obtain ⟨hFull, hAlike⟩ := told_fullyTold hWord (spells_of_mnemonic? hSpelled)
    have hTold := decode_of_spells hFull.word hFull.spells
    rw [hLegal, hTold, ← hAlike.text]
    exact ⟨stands_legal hFull, hAlike⟩

/-- From the text of any words, a line for each of them, the assembler makes as many words. Each is
the word that it comes from but for the bits that are not told, and it is written and scheduled
alike. -/
theorem assemble_text (words : List Nat) (hWords : ∀ w ∈ words, w < 0x100000000) (base : Int) :
    ∃ program,
      assemble (String.intercalate "\n" (words.map fun w : Nat => (decode w).text)).toList base =
        .ok program ∧
      program.words.length = words.length ∧ program.words = words.map told ∧
      ∀ w ∈ words, (decode (told w)).Alike (decode w) := by
  have hStands : List.Forall₂ Stands (words.map fun w : Nat => (decode w).text.toList)
      (words.map told) := by
    rw [List.forall₂_map_left_iff, List.forall₂_map_right_iff, List.forall₂_same]
    exact fun w hIn => (stands_text (hWords w hIn)).1
  obtain ⟨program, hProgram, hImage⟩ := assemble_of_stands hStands base
  refine ⟨program, ?_, ?_, hImage, fun w hIn => (stands_text (hWords w hIn)).2⟩
  · rw [String.toList_intercalate, List.map_map]
    exact hProgram
  · rw [hImage, List.length_map]

/-- A branch backwards, an illegal word, and three words with bits that are not told. -/
theorem assemble_text_of_untold_bits :
    ∃ program,
      assemble (String.intercalate "\n"
          ([0xfe0508e3, 0xffffffff, 0xfff1008d, 0x0012a18b, 0x0220920f].map
            fun w : Nat => (decode w).text)).toList 0 = .ok program ∧
        program.words = [0xfe0508e3, 0xffffffff, 0x0001008d, 0x0000218b, 0x0200120f] := by
  obtain ⟨program, hProgram, -, hImage, -⟩ := assemble_text
    [0xfe0508e3, 0xffffffff, 0xfff1008d, 0x0012a18b, 0x0220920f] (by decide) 0
  exact ⟨program, hProgram, hImage.trans (by decide +kernel)⟩

end AccelPipe

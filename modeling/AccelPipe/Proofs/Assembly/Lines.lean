import AccelPipe.Proofs.Assembly.Laid
import AccelPipe.Proofs.Assembly.Source

/-! A source without labels, in which every line says nothing or becomes one word wherever it stands:
its image is made of these words. -/
namespace AccelPipe.Assembly

/-- A line that becomes one word, wherever it stands. -/
structure Stands (text : List Char) (word : Nat) : Prop where
  one_line : '\n' ∉ text
  meaning : meaning text = text
  item : ∀ line, itemsOfText line text = [.statement line text]
  size : ∀ line pc, sizeAt line (nameAndRest text).1 (nameAndRest text).2 pc = .ok 4
  word : ∀ line address,
    emit [] ⟨line, text, (nameAndRest text).1, (nameAndRest text).2, address, 4⟩ = .ok [word]

/-- A plain statement is such a line if its name and its operands say so. -/
theorem stands_statementText {name : List Char} {ops : List (List Char)} {w : Nat}
    (hName : Plain name) (hOps : ∀ token ∈ ops, Plain token) (hLower : Text.lower name = name)
    (hPlaces : isPlacement name = false)
    (hSize : statementSize name ([',', ' '].intercalate ops) = 4)
    (hWord : ∀ address, (if name = ".word".toList then emitData [] ops
      else emitInstruction ⟨[], address, 4, ops⟩ (String.ofList name)) = .ok [w]) :
    Stands (statementText name ops) w where
  one_line := not_mem_statementText hName hOps rfl (by decide) (by decide)
  meaning := meaning_statementText hName hOps
  item := itemsOfText_statementText hName hOps
  size line pc := by
    rw [nameAndRest_statementText hName hOps hLower]
    exact (sizeAt_of_statement hPlaces line _ pc).trans (congrArg Except.ok hSize)
  word line address := by
    rw [nameAndRest_statementText hName hOps hLower]
    unfold emit
    rw [if_neg (by simp [hPlaces])]
    dsimp only
    rw [operands_intercalate hOps, hWord]
    rfl

/-- The name of a statement that is an instruction. -/
structure NamesInstruction (name : List Char) : Prop where
  plain : Plain name
  lower : Text.lower name = name
  places : isPlacement name = false
  data : name ≠ ".word".toList
  load : name ≠ "li".toList

/-- A mnemonic is such a name, with or without the mark of a sliding instruction. -/
theorem namesInstruction_of_mnemonic {m : Mnemonic} {name : String}
    (h : name = m.name ∨ name = m.name ++ ".n") : NamesInstruction name.toList := by
  have hChecked : name.toList ≠ [] ∧ name.toList.all isPlain = true ∧
      Text.lower name.toList = name.toList ∧ isPlacement name.toList = false ∧
      name.toList ≠ ".word".toList ∧ name.toList ≠ "li".toList := by
    rcases h with rfl | rfl <;> cases m <;> decide +kernel
  obtain ⟨hSome, hAll, hLower, hPlaces, hData, hLoad⟩ := hChecked
  exact ⟨⟨hSome, List.all_eq_true.mp hAll⟩, hLower, hPlaces, hData, hLoad⟩

/-- An instruction that is encoded as one word stands for it. -/
theorem stands_instruction {name : String} {ops : List (List Char)} {w : Nat}
    (hName : NamesInstruction name.toList) (hOps : ∀ token ∈ ops, Plain token)
    (hWord : ∀ address, emitInstruction ⟨[], address, 4, ops⟩ name = .ok [w]) :
    Stands (statementText name.toList ops) w := by
  refine stands_statementText hName.plain hOps hName.lower hName.places ?_ fun address => ?_
  · unfold statementSize
    rw [if_neg hName.data, if_neg hName.load]
  · rw [if_neg hName.data, String.ofList_toList]
    exact hWord address

/-- The lines of a source, and the words of those that say something. -/
inductive Tells : List (List Char) → List Nat → Prop where
  | nil : Tells [] []
  | silent {raw : List Char} {raws : List (List Char)} {words : List Nat} (one_line : '\n' ∉ raw)
      (meaning : meaning raw = []) (rest : Tells raws words) : Tells (raw :: raws) words
  | word {raw : List Char} {raws : List (List Char)} {w : Nat} {words : List Nat}
      (one_line : '\n' ∉ raw) (stands : Stands (Assembly.meaning raw) w) (rest : Tells raws words) :
      Tells (raw :: raws) (w :: words)

theorem tells_of_stands {texts : List (List Char)} {words : List Nat}
    (h : List.Forall₂ Stands texts words) : Tells texts words := by
  induction h with
  | nil => exact .nil
  | cons hFirst _ ih => exact .word hFirst.one_line (hFirst.meaning.symm ▸ hFirst) ih

section Tells

variable {raws : List (List Char)} {words : List Nat} (h : Tells raws words)
include h

/-- The lines that say something are laid out one word after the other. -/
theorem laid_of_tells (line : Nat) (pc : Int) :
    ∃ placed, Laid pc (itemsFrom line raws) [] placed ∧
      List.Forall₂ (fun p ws => emit [] p = .ok ws) placed (words.map ([·])) := by
  induction h generalizing line pc with
  | nil => exact ⟨[], .nil pc, .nil⟩
  | silent _ hNothing _ ih =>
      rw [itemsFrom, hNothing, itemsOfText_nil, List.nil_append]
      exact ih (line + 1) pc
  | @word raw _ w _ _ hFirst _ ih =>
      obtain ⟨placed, hLaid, hWords⟩ := ih (line + 1) (pc + 4)
      rw [itemsFrom, hFirst.item, List.singleton_append]
      exact ⟨_, .statement rfl (hFirst.size line pc) hLaid, .cons (hFirst.word line pc) hWords⟩

theorem items_of_tells : items (['\n'].intercalate raws) = itemsFrom 1 raws := by
  have hLines : ∀ raw ∈ raws, '\n' ∉ raw := by
    induction h with
    | nil => nofun
    | silent hLine _ _ ih => exact List.forall_mem_cons.mpr ⟨hLine, ih⟩
    | word hLine _ _ ih => exact List.forall_mem_cons.mpr ⟨hLine, ih⟩
  unfold items
  cases raws with
  | nil =>
      have hNone : itemsFrom 1 [[]] = [] := by
        change itemsOfText 1 [] ++ [] = []
        rw [itemsOfText_nil]
        rfl
      exact hNone
  | cons => rw [List.splitOn_intercalate _ hLines nofun]

end Tells

/-- A source is accepted if each of its lines says nothing or stands for one word, and these words
are the image. -/
theorem assemble_of_tells {raws : List (List Char)} {words : List Nat} (h : Tells raws words)
    (base : Int) :
    ∃ program, assemble (['\n'].intercalate raws) base = .ok program ∧ program.words = words := by
  obtain ⟨placed, hLaid, hWords⟩ := laid_of_tells h 1 base
  rw [← items_of_tells h] at hLaid
  obtain ⟨program, hProgram, hIs⟩ := assemble_of_laid hLaid List.nodup_nil hWords
  refine ⟨program, hProgram, hIs.trans ?_⟩
  rw [← List.flatMap_def, List.flatMap_singleton']

/-- Lines that stand for one word each are accepted, and their words are the image. -/
theorem assemble_of_stands {texts : List (List Char)} {words : List Nat}
    (h : List.Forall₂ Stands texts words) (base : Int) :
    ∃ program, assemble (['\n'].intercalate texts) base = .ok program ∧
      program.words = words :=
  assemble_of_tells (tells_of_stands h) base

end AccelPipe.Assembly

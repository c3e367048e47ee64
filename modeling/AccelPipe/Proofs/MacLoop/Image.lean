import AccelPipe.MacLoop
import AccelPipe.Proofs.Constant

/-! The image of the counted loop. The load of the counter is one word or two, depending on the
count, and all that follows is the same for every count: the address of the loop moves with it, and
the branch to it goes by a distance. -/
namespace AccelPipe.MacLoop

open Assembly

/-- The line that loads the counter, without its indentation. -/
def countText (count : Nat) : List Char := "li   x1, ".toList ++ (Text.decimal count).toList

/-- The words behind the load of the counter. -/
def loopWords : List Nat := [0x300113, 0x400193, 0x31020c, 0xfff08093, 0xfe009ce3, 0x73]

/-- How many words load the counter. -/
def loadWords (count : Nat) : Nat := if count ≤ 2047 then 1 else 2

section Count

variable (count : Nat)

/-- The operands of the first load. -/
def countOperands : List Token := ["x1".toList, (Text.decimal count).toList]

theorem plain_countOperands : ∀ token ∈ countOperands count, Plain token :=
  plain_operands ⟨nofun, List.all_eq_true.mp (by decide)⟩ (plain_decimal count)

/-- The first line loads the count, behind some blanks, -/
theorem countText_eq :
    countText count =
      "li".toList ++ ("   ".toList ++ [',', ' '].intercalate (countOperands count)) := by
  unfold countText countOperands
  rw [List.intercalate_cons_cons, List.intercalate_singleton]
  rfl

/-- A mark that is not plain and not in front of the number does not occur. -/
theorem not_mem_countText {c : Char} (hFront : c ∉ "li   x1, ".toList) (h : isPlain c = false) :
    c ∉ countText count := by
  intro hIn
  rcases List.mem_append.mp hIn with hIn | hIn
  · exact hFront hIn
  · exact Bool.false_ne_true (h.symm.trans ((plain_decimal count).all c hIn))

/-- which is all that it means. -/
theorem meaning_countText : meaning (countText count) = countText count := by
  refine meaning_of_ends (not_mem_countText count (by decide) rfl)
    (not_mem_countText count (by decide) rfl) (fun c hFirst => ?_) (fun c hLast => ?_)
  · cases hFirst
    rfl
  · have hDigits := plain_decimal count
    unfold countText at hLast
    rw [List.getLast?_append_of_ne_nil _ hDigits.ne_nil] at hLast
    exact hDigits.not_blank c (List.mem_of_getLast? hLast)

/-- Its operands are told from its name. -/
theorem nameAndRest_countText :
    nameAndRest (countText count) =
      ("li".toList, [',', ' '].intercalate (countOperands count)) := by
  rw [countText_eq]
  refine nameAndRest_padded plain_li (by decide) nofun (List.all_eq_true.mp (by decide)) ?_
  exact fun c hFirst => isBlank_of_isPlain (intercalate_first (plain_countOperands count) c hFirst)

end Count

/-- The lines behind the load of the counter. -/
def loopLines : List (List Char) :=
  ["        li   x2, 3".toList, "        li   x3, 4".toList, "    loop:".toList,
    "        mac  x4, x2, x3".toList, "        addi x1, x1, -1".toList,
    "        bne  x1, x0, loop".toList, "        ecall".toList, "    ".toList]

/-- The lines of the loop mean what they say without their comments. -/
theorem meaning_loopLines :
    loopLines.map meaning = ["li   x2, 3".toList, "li   x3, 4".toList, "loop:".toList,
      "mac  x4, x2, x3".toList, "addi x1, x1, -1".toList, "bne  x1, x0, loop".toList,
      "ecall".toList, []] := by
  decide +kernel

/-- The items behind the load of the counter. -/
theorem itemsFrom_loopLines :
    itemsFrom 3 loopLines =
      [.statement 3 "li   x2, 3".toList, .statement 4 "li   x3, 4".toList, .label 5 "loop".toList,
        .statement 6 "mac  x4, x2, x3".toList, .statement 7 "addi x1, x1, -1".toList,
        .statement 8 "bne  x1, x0, loop".toList, .statement 9 "ecall".toList] := by
  have hMeaning := meaning_loopLines
  have hLabel : leadingLabel? "loop:".toList = some ("loop".toList, []) := by
    decide +kernel
  unfold loopLines at hMeaning ⊢
  simp only [List.map_cons, List.map_nil, List.cons.injEq, and_true] at hMeaning
  obtain ⟨hThree, hFour, hLoop, hMac, hAddi, hBne, hEcall, hEnd⟩ := hMeaning
  rw [itemsFrom, itemsFrom, itemsFrom, itemsFrom, itemsFrom, itemsFrom, itemsFrom, itemsFrom,
    itemsFrom, hThree, hFour, hLoop, hMac, hAddi, hBne, hEcall, hEnd,
    itemsOfText_of_no_colon 3 (by decide) (by decide),
    itemsOfText_of_no_colon 4 (by decide) (by decide), itemsOfText_label hLabel, itemsOfText_nil,
    itemsOfText_of_no_colon 6 (by decide) (by decide),
    itemsOfText_of_no_colon 7 (by decide) (by decide),
    itemsOfText_of_no_colon 8 (by decide) (by decide),
    itemsOfText_of_no_colon 9 (by decide) (by decide), itemsOfText_nil]
  rfl

/-- The items of the source are those of its lines. -/
theorem items_source (count : Nat) :
    items (source count).toList = .statement 2 (countText count) :: itemsFrom 3 loopLines := by
  have hIndented : ("        li   x1, " ++ Text.decimal count).toList =
      List.replicate 8 ' ' ++ countText count := String.toList_append
  have hSource : (source count).toList =
      ['\n'].intercalate ([] :: (List.replicate 8 ' ' ++ countText count) :: loopLines) := by
    unfold source loopLines
    simp only [String.toList_intercalate, List.map_cons, List.map_nil, hIndented,
      show "\n".toList = ['\n'] from rfl, show "".toList = [] from rfl]
  have hLine : '\n' ∉ List.replicate 8 ' ' ++ countText count := by
    intro hIn
    rcases List.mem_append.mp hIn with hIn | hIn
    · exact absurd (List.eq_of_mem_replicate hIn) (by decide)
    · exact not_mem_countText count (by decide) rfl hIn
  have hLines : ∀ line ∈ [] :: (List.replicate 8 ' ' ++ countText count) :: loopLines,
      '\n' ∉ line :=
    List.forall_mem_cons.mpr ⟨nofun, List.forall_mem_cons.mpr ⟨hLine, by decide⟩⟩
  have hItem : itemsOfText 2 (countText count) = [.statement 2 (countText count)] :=
    itemsOfText_of_no_colon 2 (not_mem_countText count (by decide) rfl) nofun
  unfold items
  rw [hSource, List.splitOn_intercalate _ hLines nofun, itemsFrom, itemsFrom, meaning_indented,
    meaning_countText, hItem, show meaning [] = [] from rfl, itemsOfText_nil, List.nil_append,
    List.singleton_append]

/-- A statement of one word, at an address. -/
def placeWord (line : Nat) (text : List Char) (address : Int) : Placed :=
  ⟨line, text, (nameAndRest text).1, (nameAndRest text).2, address, 4⟩

/-- A line of one word is laid out in four bytes. -/
theorem laid_placeWord {line : Nat} {text : List Char} {address : Int} {items : List Item}
    {labels : Labels} {placed : List Placed}
    (h : isPlacement (nameAndRest text).1 = false ∧
      statementSize (nameAndRest text).1 (nameAndRest text).2 = 4)
    (more : Laid (address + 4) items labels placed) :
    Laid address (.statement line text :: items) labels (placeWord line text address :: placed) :=
  .statement rfl ((sizeAt_of_statement h.1 line _ address).trans (congrArg Except.ok h.2)) more

/-- The statements behind the load of the counter. -/
def loopPlaced (start : Int) : List Placed :=
  [placeWord 3 "li   x2, 3".toList start, placeWord 4 "li   x3, 4".toList (start + 4),
    placeWord 6 "mac  x4, x2, x3".toList (start + 4 + 4),
    placeWord 7 "addi x1, x1, -1".toList (start + 4 + 4 + 4),
    placeWord 8 "bne  x1, x0, loop".toList (start + 4 + 4 + 4 + 4),
    placeWord 9 "ecall".toList (start + 4 + 4 + 4 + 4 + 4)]

/-- The loop is laid out behind its label. -/
theorem laid_loop (start : Int) :
    Laid start (itemsFrom 3 loopLines) [("loop".toList, start + 4 + 4)] (loopPlaced start) := by
  rw [itemsFrom_loopLines]
  exact laid_placeWord (by decide +kernel) (laid_placeWord (by decide +kernel)
    (.label (laid_placeWord (by decide +kernel) (laid_placeWord (by decide +kernel)
      (laid_placeWord (by decide +kernel) (laid_placeWord (by decide +kernel) (.nil _)))))))

/-- Wherever the loop starts, its words are the same. -/
theorem emit_loop {start : Int} (h : start = 4 ∨ start = 8) :
    List.Forall₂ (fun p ws => emit [("loop".toList, start + 4 + 4)] p = .ok ws) (loopPlaced start)
      (loopWords.map ([·])) := by
  have hWords : ((loopPlaced start).mapM (emit [("loop".toList, start + 4 + 4)])).toOption =
      some (loopWords.map ([·])) := by
    rcases h with rfl | rfl <;> decide +kernel
  exact mapM_ok (ok_of_toOption hWords)

/-- The load of the counter. -/
def countPlaced (count : Nat) : Placed :=
  ⟨2, countText count, "li".toList, [',', ' '].intercalate (countOperands count), 0,
    loadSize (countOperands count)⟩

theorem size_countPlaced (count : Nat) :
    (countPlaced count).size = loadSize (countOperands count) := by
  dsimp only [countPlaced]

/-- So the source is laid out, with the loop behind the load of the count. -/
theorem laid_source (count : Nat) :
    Laid 0 (items (source count).toList)
      [("loop".toList, loadSize (countOperands count) + 4 + 4)]
      (countPlaced count :: loopPlaced (loadSize (countOperands count))) := by
  have hRoom := sizeAt_li 2 ([',', ' '].intercalate (countOperands count)) 0
  have hRest := laid_loop (0 + loadSize (countOperands count))
  rw [operands_intercalate (plain_countOperands count)] at hRoom
  rw [items_source, ← Int.zero_add (loadSize (countOperands count))]
  exact .statement (nameAndRest_countText count) hRoom hRest

section Count

variable {count : Nat} (hCount : count < 0x100000000)
include hCount

/-- The count is read back. -/
theorem readInteger_count :
    Text.readInteger (Text.trim (Text.decimal count).toList) = .ok (count : Int) := by
  rw [(plain_decimal count).trim]
  exact Text.readInteger_decimal (Text.writable_of_lt (by rwa [Int.natAbs_natCast]))

theorem loadSize_count : loadSize (countOperands count) = 4 * (loadWords count : Int) := by
  have hSize : loadSize (countOperands count) = if count ≤ 2047 then 4 else 8 :=
    (loadSize_of_readInteger _ (readInteger_count hCount)).trans (if_congr (by omega) rfl rfl)
  rw [hSize]
  unfold loadWords
  split <;> rfl

/-- A number is not the name of the loop. -/
theorem lookup_count (address : Int) :
    List.lookup (Text.trim (Text.decimal count).toList) [("loop".toList, address)] = none := by
  have hRefused : (Text.readInteger "loop".toList).toOption = none := by
    decide +kernel
  have hOther : Text.trim (Text.decimal count).toList ≠ "loop".toList := by
    intro hIs
    rw [← hIs, readInteger_count hCount] at hRefused
    cases hRefused
  rw [List.lookup_cons, beq_false_of_ne hOther, List.lookup_nil]

/-- The load of the count is emitted, and loads it. -/
theorem emit_count (address : Int) :
    ∃ first, emit [("loop".toList, address)] (countPlaced count) = .ok first ∧
      LoadsInto first 1 count ∧ 4 * (first.length : Int) = (countPlaced count).size := by
  have hReg : register "x1".toList = .ok 1 := ok_of_toOption (by decide +kernel)
  have hOps : operands (countPlaced count).rest = ["x1".toList, (Text.decimal count).toList] :=
    operands_intercalate (plain_countOperands count)
  exact emit_load rfl hOps (size_countPlaced count) hReg (readInteger_count hCount)
    (lookup_count hCount address)

/-- The image for every count: words that load the counter, and the loop. -/
theorem program_words :
    ∃ p first, program count = .ok p ∧ p.words = first ++ loopWords ∧
      LoadsInto first 1 count ∧ first.length = loadWords count := by
  have hLaid := laid_source count
  have hStart := loadSize_cases (countOperands count)
  obtain ⟨first, hEmit, hLoads, hLength⟩ :=
    emit_count hCount (loadSize (countOperands count) + 4 + 4)
  have hLong : (countPlaced count).size = 4 * (loadWords count : Int) := by
    rw [size_countPlaced, loadSize_count hCount]
  generalize loadSize (countOperands count) = start at hLaid hStart hEmit
  obtain ⟨p, hProgram, hAll⟩ := assemble_of_laid hLaid (List.pairwise_singleton _ _)
    (.cons hEmit (emit_loop hStart))
  have hLoop : (loopWords.map ([·])).flatten = loopWords := by decide
  rw [List.flatten_cons, hLoop] at hAll
  exact ⟨p, first, hProgram, hAll, hLoads, by omega⟩

end Count

end AccelPipe.MacLoop

import AccelPipe.Proofs.Stimulus.Stream
import AccelPipe.Stimulus.Basic

/-! Generated programs run off through their last word. The source of a draft is accepted, each of
its lines is one word, and sequential execution gets from the first of them to the last. -/
namespace AccelPipe

open Assembly Instruction

namespace Stimulus

/-! Lines to words. -/

/-- The words of some lines, one after the other. -/
def Reading (lines : List Line) (words : List Nat) : Prop :=
  List.Forall₂ (fun l w => Stands l.statement w) lines words

/-- Lines that go forward become words that do. -/
theorem words_of_onward {last place : Nat} {lines : List Line}
    (h : ∀ (i : Nat) (l : Line), lines[i]? = some l → l.Onward last (place + i)) :
    ∃ words, Reading lines words ∧
      ∀ i w : Nat, words[i]? = some w → Passes last (place + i) w := by
  induction lines generalizing place with
  | nil => exact ⟨[], .nil, nofun⟩
  | cons l lines ih =>
      obtain ⟨w, hWord⟩ := (h 0 l rfl).becomes
      have hBehind : ∀ (i : Nat) (l' : Line), lines[i]? = some l' →
          l'.Onward last (place + 1 + i) := fun i l' hLine => by
        rw [Nat.add_right_comm]
        exact h (i + 1) l' hLine
      obtain ⟨words, hLines, hWords⟩ := ih hBehind
      refine ⟨w :: words, .cons hWord.stands hLines, fun i w' hIs => ?_⟩
      cases i with
      | zero =>
          cases hIs
          exact hWord.toPasses
      | succ i =>
          have hRest := hWords i w' hIs
          rwa [Nat.add_right_comm] at hRest

/-- The last line stands for the call that ends the run. -/
theorem stands_closing : Stands (Line.statement ⟨"ecall", []⟩) 0x73 :=
  stands_instruction (namesInstruction_of_mnemonic (m := .ecall) (.inl rfl)) nofun fun _ => rfl

theorem mnemonic_closing : (decode (0x73 : Nat)).mnemonic = .ecall := by
  decide +kernel

theorem kind_closing : (decode (0x73 : Nat)).kind = .system := by
  unfold kind
  rw [mnemonic_closing]
  rfl

/-- The closing word does not jump. -/
theorem onward_closing (last place : Nat) : (decode (0x73 : Nat)).Onward last place where
  legal := by
    rw [kind_closing]
    nofun
  near hJumps := by
    rw [mnemonic_closing] at hJumps
    rcases hJumps with hBranch | hJal
    · cases hBranch
    · cases hJal
  far hJumps := by cases mnemonic_closing.symm.trans hJumps

/-- Words that go on to later ones run off through a closing one. -/
theorem runsOff_concat {words : List Nat}
    (h : ∀ place w : Nat, words[place]? = some w → Passes words.length place w) :
    RunsOff (words ++ [0x73]) := by
  have hEnd : (words ++ [0x73]).length = words.length + 1 := by
    rw [List.length_append, List.length_singleton]
  constructor
  case nonempty =>
    rw [hEnd]
    exact Nat.succ_pos _
  case word =>
    intro w hIn
    obtain ⟨place, hWord⟩ := List.mem_iff_getElem?.mp hIn
    rcases getElem?_concat_cases hWord with ⟨-, hFront⟩ | ⟨-, rfl⟩
    · exact (h place w hFront).small
    · decide
  case onward =>
    intro place w hWord
    rw [hEnd, Nat.add_sub_cancel]
    rcases getElem?_concat_cases hWord with ⟨-, hFront⟩ | ⟨-, rfl⟩
    · exact (h place w hFront).onward
    · exact onward_closing words.length place
  case closing =>
    intro place w hWord
    rw [hEnd]
    rcases getElem?_concat_cases hWord with ⟨hBefore, hFront⟩ | ⟨rfl, rfl⟩
    · exact ⟨fun hSystem => absurd hSystem (h place w hFront).ordinary, fun hLast => by omega⟩
    · exact ⟨fun _ => rfl, fun _ => kind_closing⟩

/-- Lines that go forward to a closing one make a program that runs off through it. -/
theorem runsOff_of_onward {lines : List Line}
    (h : ∀ (i : Nat) (l : Line), lines[i]? = some l → l.Onward lines.length i) :
    ∃ words, Reading (lines ++ [⟨"ecall", []⟩]) words ∧ RunsOff words := by
  have hFromZero : ∀ (i : Nat) (l : Line), lines[i]? = some l →
      l.Onward lines.length (0 + i) := fun i l hLine => by
    rw [Nat.zero_add]
    exact h i l hLine
  obtain ⟨words, hLines, hWords⟩ := words_of_onward hFromZero
  rw [hLines.length_eq] at hWords
  refine ⟨words ++ [0x73], List.rel_append hLines (.cons stands_closing .nil),
    runsOff_concat fun place w hWord => ?_⟩
  have hPasses := hWords place w hWord
  rwa [Nat.zero_add] at hPasses

/-! Lines to a source. -/

/-- A line is indented by four blanks. -/
theorem toList_text (l : Line) : l.text.toList = [' ', ' ', ' ', ' '] ++ l.statement := by
  have hBlanks : "    ".toList = [' ', ' ', ' ', ' '] := by decide
  have hComma : ", ".toList = [',', ' '] := by decide
  unfold Line.text Line.statement statementText
  rw [String.toList_append, String.toList_append, hBlanks, List.append_assoc]
  cases l.parts with
  | nil =>
      rw [List.map_nil, List.map_nil, if_pos rfl]
      exact congrArg _ (List.append_nil _)
  | cons p parts =>
      rw [if_neg nofun, if_neg (by simp), String.toList_append, String.toList_intercalate, hComma]
      rfl

/-- A line says what its statement says. -/
theorem tells_line {l : Line} {w : Nat} (h : Stands l.statement w) {raws : List (List Char)}
    {words : List Nat} (hRest : Tells raws words) : Tells (l.text.toList :: raws) (w :: words) := by
  have hMeaning : meaning l.text.toList = l.statement := by
    rw [toList_text]
    exact h.meaning
  refine .word ?_ (hMeaning.symm ▸ h) hRest
  rw [toList_text]
  intro hIn
  rcases List.mem_append.mp hIn with hBlank | hText
  · revert hBlank
    decide
  · exact h.one_line hText

/-- The text of some lines tells the words that they stand for. -/
theorem tells_lines {lines : List Line} {words : List Nat} (h : Reading lines words) :
    Tells (lines.map (·.text.toList) ++ [[]]) words := by
  induction h with
  | nil => exact .silent nofun rfl .nil
  | cons hFirst _ ih => exact tells_line hFirst ih

/-- The comment in front says nothing. -/
theorem tells_comment (seed length : Int) {raws : List (List Char)} {words : List Nat}
    (h : Tells raws words) : Tells ((comment seed length).toList :: raws) words := by
  have hDecimal : ∀ v : Int, '\n' ∉ (Text.decimal v).toList := fun v hIn =>
    absurd ((plain_decimal v).all _ hIn) (by decide)
  have hSplit : (comment seed length).toList = "; random stream seed=".toList ++
      (Text.decimal seed).toList ++ " length=".toList ++ (Text.decimal length).toList := by
    unfold comment
    rw [String.toList_append, String.toList_append, String.toList_append]
  refine .silent ?_ ?_ h
  · rw [hSplit]
    intro hIn
    simp only [List.mem_append] at hIn
    rcases hIn with ((hMark | hSeed) | hName) | hLength
    · revert hMark
      decide
    · exact hDecimal seed hSeed
    · revert hName
      decide
    · exact hDecimal length hLength
  · rw [hSplit]
    rfl

theorem intercalate_concat_nil {sep : List Char} {first : List Char} (rest : List (List Char)) :
    sep.intercalate ((first :: rest) ++ [[]]) = sep.intercalate (first :: rest) ++ sep := by
  induction rest generalizing first with
  | nil =>
      rw [List.singleton_append, List.intercalate_cons_cons, List.intercalate_singleton,
        List.intercalate_singleton, List.append_nil]
  | cons second rest ih =>
      have hRest := @ih second
      rw [List.cons_append] at hRest
      rw [List.cons_append, List.cons_append, List.intercalate_cons_cons, hRest,
        List.intercalate_cons_cons]
      simp only [List.append_assoc]

/-- The source of a draft is accepted, and its words are those of its lines. -/
theorem assemble_sourceOf (seed length : Int) {d : Draft} {words : List Nat}
    (h : Reading d.lines words) :
    ∃ program, assemble (sourceOf seed length d).toList 0 = .ok program ∧
      program.words = words := by
  have hSource : (sourceOf seed length d).toList = ['\n'].intercalate
      (((comment seed length).toList :: d.lines.map (·.text.toList)) ++ [[]]) := by
    have hBreak : "\n".toList = ['\n'] := by decide
    unfold sourceOf
    rw [intercalate_concat_nil, String.toList_append, String.toList_intercalate, hBreak,
      List.map_cons, List.map_map]
    rfl
  rw [hSource]
  exact assemble_of_tells (tells_comment seed length (tells_lines h)) 0

/-- A draft that can be read becomes a stimulus with those words. -/
theorem ofDraft_ok (seed length : Int) {d : Draft} {words : List Nat} (h : Reading d.lines words) :
    ∃ s, ofDraft seed length d = .ok s ∧ s.words = words := by
  obtain ⟨program, hAssembled, hWords⟩ := assemble_sourceOf seed length h
  refine ⟨⟨seed, sourceOf seed length d, program.words, d.data⟩, ?_, hWords⟩
  unfold ofDraft
  dsimp only
  rw [hAssembled]
  rfl

/-! Drafts. -/

/-- The lines in front load constants, which they may do anywhere. -/
theorem ensures_head :
    head.Ensures fun lines => lines.length = headWords ∧
      ∀ l ∈ lines, ∀ last place, Line.Onward last place l := by
  have hAll : ∀ r ∈ dataRegisters, r < 32 := by decide
  have hData : ∀ r ∈ dataRegisters, Draw.Ensures (fun l => ∀ last place, Line.Onward last place l)
      (do return Line.mk "li" [.register r, .number (← Draw.between (-2048) 2047)]) := fun r hIn =>
    (Draw.ensures_between (by decide)).bind fun n hRange => .done fun _ _ =>
      .constant (hAll r hIn) hRange.1 hRange.2
  unfold head
  refine (Draw.ensures_mapM hData).bind fun lines hLines => .done ⟨?_, ?_⟩
  · rw [List.length_append, hLines.1]
    rfl
  · intro l hIn last place
    rcases List.mem_append.mp hIn with hPointer | hLine
    · simp only [List.mem_cons, List.not_mem_nil, or_false] at hPointer
      rcases hPointer with rfl | rfl | rfl <;> exact .constant (by decide) (by decide) (by decide)
    · exact hLines.2 l hLine last place

/-- Any value may come out. -/
theorem ensures_value {bits : Nat} : (value bits).Ensures fun _ => True := by
  unfold value
  refine (Draw.ensures_chance 2 10).bind fun extreme _ => ?_
  split
  · exact (Draw.ensures_choice _ _).mono fun _ _ => trivial
  · refine (Draw.ensures_between ?_).mono fun _ _ => trivial
    have hPos : (0 : Int) ≤ Nat.pow 2 (bits - 2) := Int.natCast_nonneg _
    omega

/-- A draft consists of lines that go forward and a closing one, about as many as asked for. -/
theorem ensures_draft (length : Nat) (c : Config) :
    (draft length c).Ensures fun d => ∃ lines : List Line, d.lines = lines ++ [⟨"ecall", []⟩] ∧
      (∀ (i : Nat) (l : Line), lines[i]? = some l → l.Onward lines.length i) ∧
      headWords + length ≤ lines.length ∧ lines.length ≤ headWords + length + 2 := by
  have hStream : Ensured length 0 (patterns length length) fun _ count =>
      length ≤ count ∧ count ≤ length + 2 := ensured_patterns (by omega) (by omega)
  have hPatterns := hStream {} (Stream.sound_empty length) rfl
  have hTable : ∀ count, ((List.range count).mapM fun _ => Draw.between (-4) 4).Ensures
      fun _ => True := fun count =>
    (Draw.ensures_mapM fun _ _ => Draw.ensures_between (by decide)).mono fun _ _ => trivial
  have hWords : ∀ count, ((List.range count).mapM fun _ => value c.operandType.bits).Ensures
      fun _ => True := fun count =>
    (Draw.ensures_mapM fun _ _ => ensures_value).mono fun _ _ => trivial
  unfold draft
  refine ensures_head.bind fun head hHead => hPatterns.bind fun out hOut => ?_
  obtain ⟨_, s⟩ := out
  obtain ⟨hSound, hEnough, hMost⟩ := hOut
  dsimp only at hEnough hMost
  refine (hTable _).bind fun table _ => (hWords _).bind fun words _ => ?_
  have hLength : (head ++ s.lines.reverse).length = headWords + s.count := by
    rw [List.length_append, hHead.1, List.length_reverse, ← hSound.count]
  refine .done ⟨head ++ s.lines.reverse, rfl, fun i l hLine => ?_, by omega, by omega⟩
  rw [hLength]
  rw [List.getElem?_append] at hLine
  split at hLine
  · exact hHead.2 l (List.mem_of_getElem? hLine) _ _
  · have hOnward := hSound.onward _ l hLine
    rwa [hHead.1, Nat.add_sub_cancel' (by omega), Nat.max_eq_right hEnough] at hOnward

/-! Programs. -/

/-- If the seed and the length can be written down, a program comes about, and it runs off. -/
theorem ensures_build {seed length : Int} (hSeed : Text.isWritable seed = true)
    (hLength : Text.isWritable length = true) (c : Config) :
    (build seed length c).Ensures fun outcome => ∃ s : Stimulus, outcome = .ok s ∧
      RunsOff s.words ∧ headWords + length.toNat < s.words.length ∧
      s.words.length ≤ headWords + length.toNat + 3 := by
  unfold build
  rw [hSeed, hLength, Bool.and_self, if_pos rfl]
  refine (ensures_draft length.toNat c).bind fun d hDraft => ?_
  obtain ⟨lines, hLines, hOnward, hEnough, hMost⟩ := hDraft
  obtain ⟨words, hReading, hRuns⟩ := runsOff_of_onward hOnward
  have hCount : lines.length + 1 = words.length := by
    rw [← hReading.length_eq, List.length_append, List.length_singleton]
  obtain ⟨s, hDone, rfl⟩ := ofDraft_ok seed length (hLines ▸ hReading)
  exact .done ⟨s, hDone, hRuns, by omega, by omega⟩

/-- So does the program of a seed. -/
theorem generate_ok {seed length : Int} (hSeed : Text.isWritable seed = true)
    (hLength : Text.isWritable length = true) (c : Config) :
    ∃ s, generate seed length c = .ok s ∧ RunsOff s.words := by
  have hRun := (ensures_build hSeed hLength c).run (Twister.ofSeed seed.natAbs)
  obtain ⟨s, hDone, hRuns, -⟩ := hRun
  exact ⟨s, hDone, hRuns⟩

/-- However the numbers come out, a program comes about and runs off through its last word, and
sequential execution gets there with any data, if that word has an address and the windows that it
meets on its way start at numbers of 64 bits. They do unless their stride is very great. -/
theorem build_runs_off {c : Config} (hValid : c.Valid) {seed length : Int}
    (hSeed : Text.isWritable seed = true) (hLength : Text.isWritable length = true) :
    (build seed length c).Ensures fun outcome => ∃ s : Stimulus, outcome = .ok s ∧
      RunsOff s.words ∧
      (headWords + length.toNat < s.words.length ∧
        s.words.length ≤ headWords + length.toNat + 3) ∧
      (s.words.length ≤ 0x40000000 → ∀ data,
        (c.atFirst s.words data).WindowsFit s.words.length →
        ∃ n < s.words.length, (c.atFirst s.words data).Finishes n) ∧
      (s.words.length * c.poolStride ≤ 0x7fffffff80000000 → ∀ data,
        (c.atFirst s.words data).WindowsFit s.words.length) := by
  refine (ensures_build hSeed hLength c).mono ?_
  rintro outcome ⟨s, hDone, hRuns, hSize⟩
  exact ⟨s, hDone, hRuns, hSize, fun hSmall data => hRuns.finishes c hSmall data,
    fun hFar => hValid.windowsFit hFar s.words⟩

/-- With the stride of the default configuration they do. -/
theorem build_runs_off_of_five :
    Config.Valid {} ∧ Text.isWritable 24 = true ∧ Text.isWritable 5 = true ∧
      (build 24 5 {}).Ensures fun outcome => ∃ s : Stimulus, outcome = .ok s ∧
        RunsOff s.words ∧ s.words.length ≤ 26 ∧
        ∀ data, ∃ n < s.words.length, (Config.atFirst {} s.words data).Finishes n := by
  have hSeed : Text.isWritable 24 = true := Text.writable_of_lt (by decide)
  have hLength : Text.isWritable 5 = true := Text.writable_of_lt (by decide)
  refine ⟨Config.valid_default, hSeed, hLength,
    (build_runs_off Config.valid_default hSeed hLength).mono ?_⟩
  rintro outcome ⟨s, hDone, hRuns, ⟨-, hMost⟩, hFinishes, hFit⟩
  have hFew : s.words.length ≤ 26 := hMost
  have hNear : s.words.length * 2 ≤ 0x7fffffff80000000 := by omega
  exact ⟨s, hDone, hRuns, hFew, fun data => hFinishes (by omega) data (hFit hNear data)⟩

/-! Where a program does not come about, or does not get to its end. -/

/-- The draws of a build are those of its draft. -/
theorem follow_build {seed length : Int} (hSeed : Text.isWritable seed = true)
    (hLength : Text.isWritable length = true) (c : Config) (ns : List Nat) :
    (build seed length c).follow ns = ofDraft seed length ((draft length.toNat c).follow ns) := by
  unfold build
  rw [hSeed, hLength, Bool.and_self, if_pos rfl]
  exact Draw.follow_map (ofDraft seed length) _ ns

/-- A seed without a decimal text is refused. -/
theorem build_unwritable {seed : Int} (hSeed : Text.isWritable seed = false) (length : Int)
    (c : Config) : build seed length c = .done (.error (.refused .unwritable)) := by
  unfold build
  rw [hSeed, Bool.false_and, if_neg Bool.false_ne_true]
  rfl

/-- The least of the numbers in front, and two sliding windows. -/
def twoWindows : List Nat :=
  List.replicate 15 0 ++ [8556000000000000, 0, 0, 0, 8556000000000000]

def twoWindowsWords : List Nat :=
  [0x4000a13, 0x800a93, 0xb13] ++ dataRegisters.map (fun r => 0x80000013 + 0x80 * r) ++
    [0x200008f, 0x200008f] ++ [0x73]

/-- With windows that are far apart, the second of them does not start at a number of 64 bits. -/
def farWindows : Config := { poolStride := 0x8000000000000000 }

/-- The two lines of this stimulus stand for two windows. -/
theorem reading_twoWindows :
    Reading ((draft 2 farWindows).follow twoWindows).lines twoWindowsWords := by
  have hLines : ((draft 2 farWindows).follow twoWindows).lines =
      [⟨"li", [.register 20, .number 64]⟩, ⟨"li", [.register 21, .number 8]⟩,
        ⟨"li", [.register 22, .number 0]⟩] ++
      dataRegisters.map (fun r => ⟨"li", [.register r, .number (-0x800)]⟩) ++
      [⟨"pool.n", [.register 1]⟩, ⟨"pool.n", [.register 1]⟩] ++ [⟨"ecall", []⟩] := by
    decide +kernel
  have hData : Reading (dataRegisters.map fun r => ⟨"li", [.register r, .number (-0x800)]⟩)
      (dataRegisters.map fun r => 0x80000013 + 0x80 * r) := by
    refine List.forall₂_map_left_iff.mpr (List.forall₂_map_right_iff.mpr
      (List.forall₂_same.mpr fun r hIn => ?_))
    have hFew : ∀ r ∈ dataRegisters, r < 16 := by decide
    have hReg := hFew r hIn
    refine stands_constant (by omega) (by decide) (by decide) ?_
    interval_cases r <;> rfl
  have hSlides : Stands (Line.statement ⟨"pool.n", [.register 1]⟩) 0x200008f :=
    stands_line (m := .pool) (.inr rfl) fun c _ hOps =>
      (emit_slide (m := .pool) rfl (show 1 < 32 by decide) hOps).trans rfl
  rw [hLines]
  refine List.rel_append (List.rel_append (List.rel_append ?_ hData) ?_) ?_
  · exact .cons (stands_constant (by decide) (by decide) (by decide) rfl)
      (.cons (stands_constant (by decide) (by decide) (by decide) rfl)
        (.cons (stands_constant (by decide) (by decide) (by decide) rfl) .nil))
  · exact .cons hSlides (.cons hSlides .nil)
  · exact .cons stands_closing .nil

/-- Its second window keeps that program from its end. -/
theorem not_finishes_twoWindows (n : Nat) : ¬ (farWindows.atFirst twoWindowsWords []).Finishes n := by
  intro h
  have hFails : (Reference.after 19 (farWindows.atFirst twoWindowsWords [])).record.isSome = false :=
    by decide +kernel
  have hGoesOn : ∀ i < 20, (Reference.after i
      (farWindows.atFirst twoWindowsWords [])).instruction.kind ≠ .system := by
    decide +kernel
  by_cases hLate : 19 < n
  · exact Bool.false_ne_true (hFails.symm.trans (h.executed 19 hLate))
  · exact hGoesOn n (by omega) h.ends

/-- A seed of more digits than a text may have makes no program; a program of more words than there
are addresses does not get to its last one, and nor does one that meets a window outside the numbers
of 64 bits. -/
theorem not_build_runs_off :
    Config.Valid {} ∧ farWindows.Valid ∧
      ¬ (build (Nat.pow 10 Text.maxDecimalDigits) 0 {}).Ensures
        (fun outcome => ∃ s : Stimulus, outcome = .ok s) ∧
      ¬ (build 0 0x40000000 {}).Ensures (fun outcome => ∃ s : Stimulus, outcome = .ok s ∧
        ∀ data, ∃ n, (Config.atFirst {} s.words data).Finishes n) ∧
      ¬ (build 321 2 farWindows).Ensures fun outcome => ∃ s : Stimulus, outcome = .ok s ∧
        ∀ data, ∃ n, (farWindows.atFirst s.words data).Finishes n := by
  have hWritable : ∀ v : Int, v.natAbs < 0x100000000 → Text.isWritable v = true := fun _ =>
    Text.writable_of_lt
  refine ⟨Config.valid_default, by constructor <;> decide, fun h => ?_, fun h => ?_, fun h => ?_⟩
  · have hSeed : Text.isWritable (Nat.pow 10 Text.maxDecimalDigits) = false := by
      unfold Text.isWritable
      rw [decide_eq_false_iff_not, Int.natAbs_natCast]
      exact Nat.lt_irrefl _
    rw [build_unwritable hSeed] at h
    obtain ⟨s, hDone⟩ := h.follow []
    cases hDone
  · have hBuild := ensures_build (hWritable 0 (by decide)) (hWritable 0x40000000 (by decide)) {}
    obtain ⟨s, hDone, hRuns, hMore, -⟩ := hBuild.follow []
    obtain ⟨s', hDone', hFinishes⟩ := h.follow []
    cases hDone.symm.trans hDone'
    obtain ⟨n, hEnds⟩ := hFinishes []
    have hLong : 0x40000000 < s.words.length := Nat.lt_of_le_of_lt (Nat.le_add_left _ _) hMore
    exact hRuns.endless hLong [] n hEnds.ends
  · obtain ⟨s, hDone, hFinishes⟩ := h.follow twoWindows
    rw [follow_build (hWritable 321 (by decide)) (hWritable 2 (by decide))] at hDone
    obtain ⟨s', hDone', hWords⟩ := ofDraft_ok 321 2 reading_twoWindows
    cases hDone'.symm.trans hDone
    obtain ⟨n, hEnds⟩ := hFinishes []
    exact not_finishes_twoWindows n (hWords ▸ hEnds)

end Stimulus

end AccelPipe

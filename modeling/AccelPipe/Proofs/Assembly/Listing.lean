import AccelPipe.Proofs.Assembly.Located
import AccelPipe.Proofs.Text.Column

/-! What a listing shows. Every statement has a line of its own, with its address and the words that
the image has there. A label stands above the first line that shows its address; where no line does,
the listing does not have the label. -/
namespace AccelPipe

/-! Images as words. -/

/-- Four bytes are read as the word that they were made of. -/
theorem wordsOfBytes_word {w : Nat} (h : w < 0x100000000) (rest : List UInt8) :
    wordsOfBytes (bytesOfWord w ++ rest) = w :: wordsOfBytes rest := by
  unfold bytesOfWord
  simp only [List.cons_append, List.nil_append, wordsOfBytes, List.cons.injEq, and_true,
    UInt8.toNat_ofNat']
  omega

/-- The words of an image are read back from its bytes. -/
theorem wordsOfBytes_words {words : List Nat} (h : ∀ w ∈ words, w < 0x100000000) :
    wordsOfBytes (bytesOfWords words) = words := by
  induction words with
  | nil => rfl
  | cons w rest ih =>
      obtain ⟨hFirst, hRest⟩ := List.forall_mem_cons.mp h
      exact (wordsOfBytes_word hFirst _).trans (congrArg (w :: ·) (ih hRest))

namespace Assembly

/-- The bytes of some words come before those of the words behind them. -/
theorem drop_bytesOfWords (before after : List Nat) :
    (bytesOfWords (before ++ after)).drop (4 * before.length) = bytesOfWords after := by
  have hAppend : bytesOfWords (before ++ after) = bytesOfWords before ++ bytesOfWords after :=
    List.flatMap_append
  rw [hAppend, ← length_bytesOfWords before, List.drop_left]

/-! Lines. -/

/-- A line that shows an address and words in front of a text: numerals to the base sixteen, which
are read as the address and as the words. -/
def Shows (line : String) (address : Int) (words : List Nat) (text : List Char) : Prop :=
  ∃ column numerals,
    line = "  " ++ column ++ "  " ++ Text.padRight 18 (String.intercalate " " numerals) ++ "  " ++
      String.ofList text ∧
    Text.readDigits 16 column.toList = some address.toNat ∧
    numerals.map (fun n => Text.readDigits 16 n.toList) = words.map some

/-- The line of a statement shows its address, its words and its text. -/
theorem Entry.shows_line (e : Entry) (h : 0 ≤ e.address) :
    Shows e.line e.address e.words e.text := by
  obtain ⟨n, hAddress⟩ := Int.eq_ofNat_of_zero_le h
  refine ⟨Text.upperHexColumn 6 e.address, e.words.map (Text.hexColumn 8 ∘ Int.ofNat), rfl, ?_, ?_⟩
  · rw [hAddress]
    exact Text.readDigits_upperHexColumn 6 n
  · rw [List.map_map]
    refine List.map_congr_left fun w _ => ?_
    rw [Function.comp_apply, Function.comp_apply, Int.ofNat_eq_natCast, Text.readDigits_hexColumn]

/-- A label is shown behind twenty blanks, with a colon. -/
theorem toList_labelLine (name : List Char) :
    (labelLine name).toList = List.replicate 20 ' ' ++ (name ++ [':']) := by
  unfold labelLine Text.blanks
  simp only [String.toList_append, String.toList_ofList, List.append_assoc]
  rfl

/-- No two labels are shown alike. -/
theorem labelLine_injective : Function.Injective labelLine := by
  intro name other h
  have hText := congrArg String.toList h
  rw [toList_labelLine, toList_labelLine] at hText
  exact List.append_cancel_right (List.append_cancel_left hText)

/-- Where the line of a label is still blank, the line of a statement shows an address. -/
theorem Entry.line_ne_labelLine (e : Entry) (name : List Char) : e.line ≠ labelLine name := by
  obtain ⟨c, rest, hColumn, hSolid⟩ := Text.upperHexColumn_start 6 e.address
  intro h
  have hText := congrArg String.toList h
  rw [toList_labelLine] at hText
  unfold Entry.line at hText
  simp only [String.toList_append, hColumn] at hText
  injection hText with _ hText
  injection hText with _ hText
  injection hText with hThird _
  exact hSolid hThird

/-! Listings. -/

/-- A listing goes on with the labels that have not been shown. -/
theorem listing_append (labels : Labels) (before after : List Entry) :
    listing labels (before ++ after) = listing labels before ++
      listing (labels.filter fun l => before.all (l.2 != ·.address)) after := by
  induction before generalizing labels with
  | nil => simp [listing]
  | cons e before ih =>
      simp only [List.cons_append, listing, ih, List.append_assoc, List.filter_filter,
        List.all_cons, Bool.and_comm]

/-- The labels of an address stand above the first line that shows it. -/
theorem listing_first (labels : Labels) {before : List Entry} {e : Entry} (after : List Entry)
    (h : ∀ e' ∈ before, e'.address ≠ e.address) :
    ∃ rest, listing labels (before ++ e :: after) =
      listing labels before ++
        ((labels.filter (·.2 == e.address)).map (labelLine ·.1) ++ e.line :: rest) := by
  have hAll : (labels.filter fun l => before.all (l.2 != ·.address)).filter (·.2 == e.address) =
      labels.filter (·.2 == e.address) := by
    rw [List.filter_filter]
    refine List.filter_congr fun l _ => ?_
    cases hHere : l.2 == e.address with
    | false => rfl
    | true =>
        rw [eq_of_beq hHere, Bool.true_and]
        exact List.all_eq_true.mpr fun e' hIn => bne_iff_ne.mpr (h e' hIn).symm
  rw [listing_append, listing, hAll]
  exact ⟨_, rfl⟩

/-- Apart from the labels there is one line for each entry. -/
theorem filter_listing {labels : Labels} {p : String → Bool}
    (hLabels : ∀ l ∈ labels, p (labelLine l.1) = false) {entries : List Entry}
    (hLines : ∀ e ∈ entries, p e.line = true) :
    (listing labels entries).filter p = entries.map Entry.line := by
  induction entries generalizing labels with
  | nil => rfl
  | cons e rest ih =>
      obtain ⟨hFirst, hRest⟩ := List.forall_mem_cons.mp hLines
      have hNone : ((labels.filter (·.2 == e.address)).map (labelLine ·.1)).filter p = [] := by
        rw [List.filter_eq_nil_iff, List.forall_mem_map]
        intro l hIn
        simp [hLabels l (List.mem_of_mem_filter hIn)]
      rw [listing, List.filter_append, hNone, List.nil_append, List.filter_cons_of_pos hFirst,
        ih (fun l hIn => hLabels l (List.mem_of_mem_filter hIn)) hRest, List.map_cons]

/-- A label line is printed as often as the table gives it an address that some line shows. -/
theorem count_listing (name : List Char) (labels : Labels) (entries : List Entry) :
    (listing labels entries).count (labelLine name) =
      labels.countP fun l => l.1 == name && entries.any (·.address == l.2) := by
  induction entries generalizing labels with
  | nil => simp [listing]
  | cons e rest ih =>
      have hHere : ((labels.filter (·.2 == e.address)).map (labelLine ·.1)).count (labelLine name) =
          (labels.filter (·.2 == e.address)).countP (·.1 == name) := by
        rw [List.count, List.countP_map]
        refine List.countP_congr fun l _ => ?_
        simp only [Function.comp_apply, beq_iff_eq, labelLine_injective.eq_iff]
      rw [listing, List.count_append, hHere, List.count_cons_of_ne (e.line_ne_labelLine name), ih,
        List.countP_eq_countP_filter_add labels _ (·.2 == e.address)]
      congr 1
      · refine List.countP_congr fun l hIn => ?_
        rw [eq_of_beq (List.mem_filter.mp hIn).2]
        simp
      · refine List.countP_congr fun l hIn => ?_
        have hOther : l.2 ≠ e.address := by simpa using (List.mem_filter.mp hIn).2
        simp [Ne.symm hOther]

/-! Labels. -/

/-- The name that an item defines. -/
def Item.name? : Item → Option (List Char)
  | .label _ name => some name
  | .statement .. => none

/-- Labels are named in the order of the source, none of them twice. -/
theorem names_add {l l' : Layout} {item : Item} (h : l.add item = .ok l')
    (hOnce : (l.labels.map (·.1)).Nodup) :
    l'.labels.map (·.1) = l.labels.map (·.1) ++ item.name?.toList ∧
      (l'.labels.map (·.1)).Nodup := by
  rcases Layout.add_ok h with ⟨line, name, rfl, hNew, rfl⟩ | ⟨p, rfl, -, -, -, rfl⟩
  · have hFresh := List.lookup_eq_none_iff.mp hNew
    rw [List.map_append]
    refine ⟨rfl, List.nodup_append.mpr ⟨hOnce, List.pairwise_singleton _ name, ?_⟩⟩
    intro other hOther _ hIs
    obtain ⟨entry, hIn, rfl⟩ := List.mem_map.mp hOther
    rw [List.mem_singleton.mp hIs]
    exact Ne.symm (bne_iff_ne.mp (hFresh entry hIn))
  · exact ⟨(List.append_nil _).symm, hOnce⟩

theorem names_foldlM {l l' : Layout} {items : List Item} (h : items.foldlM Layout.add l = .ok l')
    (hOnce : (l.labels.map (·.1)).Nodup) :
    l'.labels.map (·.1) = l.labels.map (·.1) ++ items.filterMap Item.name? ∧
      (l'.labels.map (·.1)).Nodup := by
  induction items generalizing l with
  | nil =>
      cases h
      exact ⟨(List.append_nil _).symm, hOnce⟩
  | cons item rest ih =>
      rw [List.foldlM_cons] at h
      obtain ⟨next, hAdd, h⟩ := bind_ok h
      obtain ⟨hNames, hNext⟩ := names_add hAdd hOnce
      obtain ⟨hAll, hLast⟩ := ih h hNext
      refine ⟨?_, hLast⟩
      rw [hAll, hNames, List.append_assoc]
      cases item <;> rfl

/-- The table has each name of the source, in order and once. -/
theorem names_layout {base : Int} {items : List Item} {l : Layout} (h : layout base items = .ok l) :
    l.labels.map (·.1) = items.filterMap Item.name? ∧ (l.labels.map (·.1)).Nodup := by
  obtain ⟨final, hFinal, h⟩ := bind_ok h
  cases h
  exact names_foldlM hFinal List.nodup_nil

/-- A label has one place. -/
theorem countP_of_lookup {labels : Labels} (hOnce : (labels.map (·.1)).Nodup) {name : List Char}
    {address : Int} (h : labels.lookup name = some address) (p : Int → Bool) :
    labels.countP (fun l => l.1 == name && p l.2) = if p address then 1 else 0 := by
  obtain ⟨front, back, rfl, hFront⟩ := List.lookup_eq_some_iff.mp h
  rw [List.map_append, List.map_cons] at hOnce
  obtain ⟨-, hBack, -⟩ := List.nodup_append.mp hOnce
  have hBefore : front.countP (fun l => l.1 == name && p l.2) = 0 := by
    refine List.countP_eq_zero.mpr fun l hIn => ?_
    have hOther : name ≠ l.1 := by simpa using hFront l hIn
    simp [Ne.symm hOther]
  have hBehind : back.countP (fun l => l.1 == name && p l.2) = 0 := by
    refine List.countP_eq_zero.mpr fun l hIn => ?_
    have hOther : l.1 ≠ name := fun hSame =>
      (List.nodup_cons.mp hBack).1 (List.mem_map.mpr ⟨l, hIn, hSame⟩)
    simp [hOther]
  rw [List.countP_append, List.countP_cons, hBefore, hBehind]
  simp

/-! Which addresses are shown. -/

/-- The line of a statement. -/
def entryOf (s : Placed × List Nat) : Entry :=
  if isPlacement s.1.name then ⟨s.1.address + s.1.size, [], s.1.text⟩
  else ⟨s.1.address, s.2, s.1.text⟩

theorem Program.entries_eq (program : Program) :
    program.entries = program.statements.map entryOf := rfl

theorem Program.entry_at {program : Program} {before after : List (Placed × List Nat)}
    {s : Placed × List Nat} (h : program.statements = before ++ s :: after) :
    program.entries[before.length]? = some (entryOf s) := by
  rw [program.entries_eq, h, List.map_append, List.map_cons]
  simp

/-- The words of a statement in front of the address that its line shows. -/
def skipped (s : Placed × List Nat) : Nat := if isPlacement s.1.name then s.2.length else 0

/-- What is skipped in front of a statement is a part of its words. -/
theorem skipped_le (s : Placed × List Nat) : skipped s ≤ s.2.length := by
  unfold skipped
  split <;> omega

/-- A placement skips all its words. -/
theorem skipped_all_iff (s : Placed × List Nat) :
    skipped s = s.2.length ↔ isPlacement s.1.name = true ∨ s.2 = [] := by
  unfold skipped
  cases isPlacement s.1.name <;> simp [eq_comm (a := 0)]

/-- Other statements skip none. -/
theorem skipped_none_iff (s : Placed × List Nat) :
    skipped s = 0 ↔ (isPlacement s.1.name = true → s.2 = []) := by
  unfold skipped
  cases isPlacement s.1.name <;> simp

theorem length_wordsOf (before : List (Placed × List Nat)) (s : Placed × List Nat)
    (after : List (Placed × List Nat)) :
    (wordsOf (before ++ s :: after)).length =
      (wordsOf before).length + s.2.length + (wordsOf after).length := by
  unfold wordsOf
  rw [List.flatMap_append, List.flatMap_cons, List.length_append, List.length_append, Nat.add_assoc]

/-- Whether a line shows the address between some statements and those behind them. The line before
it does if it is a placement, which is shown where it ends, or has no words; the line behind it does
unless it is a placement with a gap. -/
def Seen (front back : List (Placed × List Nat)) : Prop :=
  (∃ s ∈ front.getLast?, isPlacement s.1.name = true ∨ s.2 = []) ∨
    ∃ s ∈ back.head?, isPlacement s.1.name = true → s.2 = []

section Addresses

variable {program : Program} {base finish : Int} {items : List Item}

/-- A statement stands behind all words of the statements before it. -/
theorem Program.Agrees.entry_address (h : program.Agrees base finish items)
    (hSized : ∀ s ∈ program.statements, 4 * (s.2.length : Int) = s.1.size)
    {before after : List (Placed × List Nat)} {s : Placed × List Nat}
    (hSplit : program.statements = before ++ s :: after) :
    (entryOf s).address = base + 4 * ((wordsOf before).length + skipped s) := by
  have hAddress := h.addresses before s.1 s.2 after hSplit
  have hSize := hSized s (by simp [hSplit])
  unfold entryOf skipped
  split
  · dsimp only
    omega
  · dsimp only
    omega

/-- Nothing but what stands next to an address shows it, unless that has no words itself. -/
theorem Program.Agrees.seen_iff (h : program.Agrees base finish items)
    (hSized : ∀ s ∈ program.statements, 4 * (s.2.length : Int) = s.1.size)
    {front back : List (Placed × List Nat)} (hSplit : program.statements = front ++ back) :
    (∃ e ∈ program.entries, e.address = base + 4 * (wordsOf front).length) ↔ Seen front back := by
  rw [program.entries_eq]
  constructor
  · rintro ⟨e, hIn, hHere⟩
    obtain ⟨s, hStatement, rfl⟩ := List.mem_map.mp hIn
    rw [hSplit] at hStatement
    -- there are no words between the statement that shows the address and the address, so the
    -- statement next to it has none either, if it is another one
    rcases List.mem_append.mp hStatement with hFront | hBack
    · left
      obtain ⟨before, after, rfl⟩ := List.append_of_mem hFront
      rw [h.entry_address hSized (hSplit.trans (List.append_assoc before (s :: after) back)),
        length_wordsOf] at hHere
      have hLess := skipped_le s
      rcases List.eq_nil_or_concat after with rfl | ⟨rest, last, rfl⟩
      · exact ⟨s, List.getLast?_concat, (skipped_all_iff s).mp (by omega)⟩
      · rw [List.concat_eq_append, length_wordsOf] at hHere
        refine ⟨last, ?_, .inr (List.length_eq_zero_iff.mp (by omega))⟩
        rw [List.concat_eq_append, ← List.cons_append, ← List.append_assoc]
        exact List.getLast?_concat
    · right
      obtain ⟨before, after, rfl⟩ := List.append_of_mem hBack
      rw [h.entry_address hSized (hSplit.trans (List.append_assoc front before (s :: after)).symm)]
        at hHere
      have hWords : (wordsOf (front ++ before)).length =
          (wordsOf front).length + (wordsOf before).length := by
        unfold wordsOf
        rw [List.flatMap_append, List.length_append]
      cases before with
      | nil => exact ⟨s, rfl, (skipped_none_iff s).mp (by omega)⟩
      | cons first rest =>
          have hFirst := length_wordsOf [] first rest
          rw [List.nil_append] at hFirst
          exact ⟨first, rfl, fun _ => List.length_eq_zero_iff.mp (by omega)⟩
  · rintro (⟨s, hLast, hAll⟩ | ⟨s, hFirst, hNone⟩)
    · obtain ⟨before, rfl⟩ := List.getLast?_eq_some_iff.mp hLast
      refine ⟨entryOf s, List.mem_map_of_mem (by simp [hSplit]), ?_⟩
      rw [h.entry_address hSized (hSplit.trans (List.append_assoc before [s] back)),
        (skipped_all_iff s).mpr hAll, length_wordsOf]
      simp [wordsOf]
    · obtain ⟨after, rfl⟩ := List.head?_eq_some_iff.mp hFirst
      refine ⟨entryOf s, List.mem_map_of_mem (by simp [hSplit]), ?_⟩
      rw [h.entry_address hSized hSplit, (skipped_none_iff s).mpr hNone]
      simp

/-- In the image, the words of a statement stand at its address. -/
theorem Program.Agrees.words_at (h : program.Agrees base finish items)
    (hWide : ∀ w ∈ program.words, w < 0x100000000) {before after : List (Placed × List Nat)}
    {placed : Placed} {words : List Nat}
    (hSplit : program.statements = before ++ (placed, words) :: after) :
    base ≤ placed.address ∧ (placed.address - base) % 4 = 0 ∧
      (wordsOfBytes ((bytesOfWords program.words).drop (placed.address - base).toNat)).take
        words.length = words := by
  have hAddress := h.addresses before placed words after hSplit
  have hOffset : (placed.address - base).toNat = 4 * (wordsOf before).length := by omega
  have hWords : program.words = wordsOf before ++ (words ++ wordsOf after) := by
    unfold Program.words wordsOf
    rw [hSplit, List.flatMap_append, List.flatMap_cons]
  refine ⟨by omega, by omega, ?_⟩
  rw [hWords] at hWide
  rw [hOffset, hWords, drop_bytesOfWords,
    wordsOfBytes_words fun w hIn => hWide w (List.mem_append_right _ hIn), List.take_left]

/-- A label stands where the words before it end. -/
theorem Program.Agrees.split_label (h : program.Agrees base finish items)
    {before after : List Item} {line : Nat} {name : List Char}
    (hItems : items = before ++ .label line name :: after) :
    ∃ front back, program.statements = front ++ back ∧
      front.map (·.1.item) = before.filter Item.isStatement ∧
      program.labels.lookup name = some (base + 4 * (wordsOf front).length) := by
  refine ⟨_, _, (List.take_append_drop (before.countP Item.isStatement) program.statements).symm,
    ?_, h.labels before line name after hItems⟩
  rw [List.map_take, h.statements, hItems, List.filter_append, List.countP_eq_length_filter,
    List.take_left]

end Addresses

/-- A label is shown once if a statement stands at its address, and else not at all. -/
theorem Program.count_label {program : Program} (hOnce : (program.labels.map (·.1)).Nodup)
    {name : List Char} {address : Int} (h : program.labels.lookup name = some address) :
    program.listing.count (labelLine name) =
      if ∃ e ∈ program.entries, e.address = address then 1 else 0 := by
  unfold Program.listing
  rw [count_listing, countP_of_lookup hOnce h fun a => program.entries.any (·.address == a)]
  simp only [List.any_eq_true, beq_iff_eq]

/-- The lines of the labels of a program, wherever they stand. -/
def Program.labelLines (program : Program) : List String := program.labels.map (labelLine ·.1)

/-- Without its labels, a listing has one line for every statement. -/
theorem Program.filter_lines (program : Program) (entries : List Entry) :
    (Assembly.listing program.labels entries).filter (· ∉ program.labelLines) =
      entries.map Entry.line := by
  refine filter_listing (fun l hIn => ?_) fun e _ => ?_
  · exact decide_eq_false (not_not_intro (List.mem_map_of_mem hIn))
  · refine decide_eq_true fun hIn => ?_
    obtain ⟨l, -, hSame⟩ := List.mem_map.mp hIn
    exact e.line_ne_labelLine l.1 hSame.symm

/-- What the listing of a program shows that has been made from some items. -/
structure Program.Listed (program : Program) (base : Int) (items : List Item) : Prop where
  /-- The table has the names that the items define, in their order. -/
  names : program.labels.map (·.1) = items.filterMap Item.name?
  distinct : (program.labels.map (·.1)).Nodup
  /-- Apart from the labels there is one line for each statement, in their order. -/
  lines : program.listing.filter (· ∉ program.labelLines) = program.entries.map Entry.line
  /-- The line of an instruction or of data shows its address, and the words that the image has
  from there on. -/
  words : ∀ before placed words after, program.statements = before ++ (placed, words) :: after →
    isPlacement placed.name = false →
    (∃ e, program.entries[before.length]? = some e ∧ e.address = placed.address ∧
      Shows e.line placed.address words placed.text) ∧
    base ≤ placed.address ∧ (placed.address - base) % 4 = 0 ∧
    (wordsOfBytes ((bytesOfWords program.words).drop (placed.address - base).toNat)).take
      words.length = words
  /-- The line of a placement shows the address where its gap ends. -/
  gaps : ∀ before placed words after, program.statements = before ++ (placed, words) :: after →
    isPlacement placed.name = true →
    ∃ e, program.entries[before.length]? = some e ∧
      e.address = placed.address + 4 * (words.length : Int) ∧ Shows e.line e.address [] placed.text
  /-- A label is printed once if a line shows its address, and else not at all. -/
  printed : ∀ before line name after, items = before ++ .label line name :: after →
    ∃ front back, program.statements = front ++ back ∧
      front.map (·.1.item) = before.filter Item.isStatement ∧
      program.labels.lookup name = some (base + 4 * (wordsOf front).length) ∧
      (Seen front back → program.listing.count (labelLine name) = 1) ∧
      (¬ Seen front back → labelLine name ∉ program.listing)
  /-- It then stands, with the other labels of the address, right above the first such line. -/
  above : ∀ before e after, program.entries = before ++ e :: after →
    (∀ e' ∈ before, e'.address ≠ e.address) →
    ∃ top bottom, program.listing = top ++
        ((program.labels.filter (·.2 == e.address)).map (labelLine ·.1) ++ e.line :: bottom) ∧
      top.filter (· ∉ program.labelLines) = before.map Entry.line

/-- So a program that agrees with its source is listed as its source tells. -/
theorem Program.Agrees.listed {program : Program} {base finish : Int} {items : List Item}
    (h : program.Agrees base finish items) (hBase : 0 ≤ base)
    (hSized : ∀ s ∈ program.statements, 4 * (s.2.length : Int) = s.1.size)
    (hWide : ∀ w ∈ program.words, w < 0x100000000)
    (hNames : program.labels.map (·.1) = items.filterMap Item.name?)
    (hOnce : (program.labels.map (·.1)).Nodup) : program.Listed base items where
  names := hNames
  distinct := hOnce
  lines := program.filter_lines program.entries
  words before placed words after hSplit hStatement := by
    obtain ⟨hBehind, hAligned, hWords⟩ := h.words_at hWide hSplit
    have hEntry : entryOf (placed, words) = ⟨placed.address, words, placed.text⟩ :=
      if_neg (by simp [hStatement])
    refine ⟨⟨_, Program.entry_at hSplit, ?_, ?_⟩, hBehind, hAligned, hWords⟩
    · rw [hEntry]
    · rw [hEntry]
      exact Entry.shows_line ⟨placed.address, words, placed.text⟩ (Int.le_trans hBase hBehind)
  gaps before placed words after hSplit hPlaces := by
    obtain ⟨hBehind, -, -⟩ := h.words_at hWide hSplit
    have hSize := hSized (placed, words) (by simp [hSplit])
    have hEntry : entryOf (placed, words) = ⟨placed.address + placed.size, [], placed.text⟩ :=
      if_pos hPlaces
    dsimp only at hSize
    refine ⟨_, Program.entry_at hSplit, ?_, ?_⟩
    · rw [hEntry, hSize]
    · rw [hEntry]
      exact Entry.shows_line ⟨placed.address + placed.size, [], placed.text⟩
        (show 0 ≤ placed.address + placed.size by omega)
  printed before line name after hItems := by
    obtain ⟨front, back, hSplit, hFront, hAddress⟩ := h.split_label hItems
    have hCount := program.count_label hOnce hAddress
    have hSeen := h.seen_iff hSized hSplit
    refine ⟨front, back, hSplit, hFront, hAddress, fun hIs => ?_, fun hNot => ?_⟩
    · rw [hCount, if_pos (hSeen.mpr hIs)]
    · rw [← List.count_eq_zero, hCount, if_neg (mt hSeen.mp hNot)]
  above before e after hSplit hFirst := by
    obtain ⟨bottom, hListing⟩ := listing_first program.labels after hFirst
    refine ⟨_, bottom, ?_, program.filter_lines before⟩
    unfold Program.listing
    rw [hSplit, hListing]

/-- Whatever is accepted, its listing shows where everything is. The labels that are missing are
those whose address no line shows. -/
theorem assemble_listed {source : List Char} {base : Int} {program : Program} (hBase : 0 ≤ base)
    (hAligned : base % 4 = 0) (h : assemble source base = .ok program) :
    program.Listed base (items source) := by
  obtain ⟨l, hLayout, hLabels, hPlaced, hEmitted⟩ := assemble_ok h
  obtain ⟨l', -, hAgrees⟩ := agrees_of_assemble hBase hAligned h
  have hTable := names_layout hLayout
  rw [← hLabels] at hTable
  refine hAgrees.listed hBase (fun s hIn => ?_) (fun w hIn => ?_) hTable.1 hTable.2
  · refine (sized_of_layout hAligned hLayout s.1 ?_).emit_length (hEmitted s hIn)
    rw [← hPlaced]
    exact List.mem_map_of_mem hIn
  · obtain ⟨s, hStatement, hWord⟩ := List.mem_flatMap.mp hIn
    exact emit_wide (hEmitted s hStatement) w hWord

theorem assemble_listed_of_thereAndBack :
    ∃ program, assemble thereAndBack 4 = .ok program ∧
      program.listing =
        ["                    back:", "  000004  00050263            beq a0, zero, end",
          "                    end:", "  000008  ffdff06f            j back"] ∧
      program.Listed 4 (items thereAndBack) := by
  have hListing : (assemble thereAndBack 4).toOption.map (·.listing) =
      some ["                    back:", "  000004  00050263            beq a0, zero, end",
        "                    end:", "  000008  ffdff06f            j back"] := by
    unfold assemble
    rw [items_thereAndBack]
    decide +kernel
  obtain ⟨program, hProgram, hIs⟩ := Option.map_eq_some_iff.mp hListing
  have hAccepted := ok_of_toOption hProgram
  exact ⟨program, hAccepted, hIs, assemble_listed (by decide) (by decide) hAccepted⟩

/-- A label behind the last statement. -/
def labelBehind : List Char := "nop\nend:".toList

theorem items_labelBehind :
    items labelBehind = [.statement 1 "nop".toList, .label 2 "end".toList] := by
  have hLines : labelBehind.splitOn '\n' = ["nop".toList, "end:".toList] := by
    decide +kernel
  have hMeaning : meaning "nop".toList = "nop".toList := by
    decide +kernel
  have hLabel : leadingLabel? (meaning "end:".toList) = some ("end".toList, []) := by
    decide +kernel
  unfold items
  rw [hLines, itemsFrom, itemsFrom, itemsFrom, hMeaning, itemsOfText_label hLabel, itemsOfText_nil,
    itemsOfText_of_no_colon 1 (by decide) (by decide)]
  rfl

/-- No line shows the address of such a label, so that it is not printed. -/
theorem not_printed_behind_last_statement :
    ¬ ∀ source base program, 0 ≤ base → base % 4 = 0 → assemble source base = .ok program →
      ∀ line name, Item.label line name ∈ items source →
        program.listing.count (labelLine name) = 1 := by
  intro hAll
  have hListing : (assemble labelBehind 0).toOption.map (·.listing) =
      some ["  000000  00000013            nop"] := by
    unfold assemble
    rw [items_labelBehind]
    decide +kernel
  obtain ⟨program, hProgram, hIs⟩ := Option.map_eq_some_iff.mp hListing
  have hOnce := hAll labelBehind 0 program (by decide) (by decide) (ok_of_toOption hProgram) 2
    "end".toList (by rw [items_labelBehind]; exact List.mem_cons_of_mem _ List.mem_cons_self)
  rw [hIs] at hOnce
  revert hOnce
  decide +kernel

end Assembly

end AccelPipe

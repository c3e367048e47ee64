import AccelPipe.Proofs.Assembly.Layout
import AccelPipe.Proofs.Text.Numeral

/-! The names that a source defines. A label in front of a statement is an identifier. A line that
ends with a colon without being one is a label as well, and its name may be any text. -/
namespace AccelPipe.Assembly

/-- The names of labels in front of statements. -/
def IsIdentifier (name : List Char) : Prop :=
  ∃ c rest, name = c :: rest ∧ startsLabel c = true ∧ ∀ d ∈ rest, continuesLabel d = true

/-- What is left of a text once the labels in front of it are taken off. -/
def remainder (text : List Char) : List Char :=
  match h : leadingLabel? text with
  | some (_, after) =>
    have := leadingLabel?_length h
    remainder after
  | none => text
termination_by text.length

/-- The name that a text defines by a colon at its end, labels in front aside. -/
def stray? (text : List Char) : Option (List Char) :=
  if (remainder text).getLast? = some ':' then some (remainder text).dropLast else none

/-- The names that lines define though they are no labels. -/
def strays (source : List Char) : List (List Char) :=
  ((source.splitOn '\n').map meaning).filterMap stray?

section Text

variable {text name after : List Char}

theorem isIdentifier_of_leadingLabel? (h : leadingLabel? text = some (name, after)) :
    IsIdentifier name := by
  unfold leadingLabel? at h
  split at h
  · cases h
  · rename_i c rest
    split at h
    · rename_i hStarts
      split at h
      · cases h
        exact ⟨c, _, rfl, hStarts, fun d hIn => List.mem_takeWhile_imp hIn⟩
      · cases h
    · cases h

/-- An identifier in front of a colon is a label. -/
theorem leadingLabel?_identifier (h : IsIdentifier name) :
    leadingLabel? (name ++ [':']) = some (name, []) := by
  obtain ⟨c, rest, rfl, hStarts, hRest⟩ := h
  have hAfter : Text.trimLeft ((rest ++ [':']).dropWhile continuesLabel) = [':'] := by
    rw [List.dropWhile_append_of_pos hRest]
    decide
  have hName : (rest ++ [':']).takeWhile continuesLabel = rest := by
    rw [List.takeWhile_append_of_pos hRest]
    exact List.append_nil rest
  rw [List.cons_append, leadingLabel?, if_pos hStarts, hAfter, hName]
  rfl

theorem remainder_label (h : leadingLabel? text = some (name, after)) :
    remainder text = remainder after := by
  rw [remainder]
  split
  · rename_i hIs
    cases h.symm.trans hIs
    rfl
  · rename_i hIs
    cases h.symm.trans hIs

theorem remainder_of_none (h : leadingLabel? text = none) : remainder text = text := by
  rw [remainder]
  split
  · rename_i hIs
    cases h.symm.trans hIs
  · rfl

theorem stray?_of_none (h : leadingLabel? text = none) :
    stray? text = if text.getLast? = some ':' then some text.dropLast else none := by
  rw [stray?, remainder_of_none h]

theorem leadingLabel?_remainder (text : List Char) : leadingLabel? (remainder text) = none := by
  induction text using remainder.induct with
  | case1 text name after h _ ih => rwa [remainder_label h]
  | case2 text h => rwa [remainder_of_none h]

theorem not_isIdentifier_of_stray (h : stray? text = some name) : ¬ IsIdentifier name := by
  unfold stray? at h
  split at h
  · rename_i hColon
    cases h
    intro hName
    have hLabel := leadingLabel?_identifier hName
    rw [List.dropLast_append_getLast? _ hColon, leadingLabel?_remainder] at hLabel
    cases hLabel
  · cases h

/-- Apart from identifiers, a line defines only the name that it defines as a whole. -/
theorem mem_itemsOfText_iff (hOther : ¬ IsIdentifier name) (first : Nat) (text : List Char) :
    (∃ line, .label line name ∈ itemsOfText first text) ↔ stray? text = some name := by
  induction text using itemsOfText.induct with
  | case1 text front after h _ ih =>
      -- what stands in front is an identifier, so it is another name
      have hFront : ∀ line, Item.label line name ≠ .label first front := by
        rintro line ⟨⟩
        exact hOther (isIdentifier_of_leadingLabel? h)
      unfold stray? at ih ⊢
      rw [remainder_label h, ← ih, itemsOfText_label h]
      simp only [List.mem_cons, hFront, false_or]
  | case2 text h hNone =>
      obtain rfl := List.isEmpty_iff.mp hNone
      rw [itemsOfText_nil, stray?_of_none h]
      exact iff_of_false (fun ⟨_, hIn⟩ => List.not_mem_nil hIn) nofun
  | case3 text h hSome hColon =>
      rw [itemsOfText_of_none first h, if_neg hSome, if_pos hColon, stray?_of_none h,
        if_pos hColon]
      simp only [List.mem_singleton, Item.label.injEq, exists_eq_left, Option.some.injEq]
      exact eq_comm
  | case4 text h hSome hColon =>
      rw [itemsOfText_of_none first h, if_neg hSome, if_neg hColon, stray?_of_none h,
        if_neg hColon]
      exact iff_of_false (fun ⟨_, hIn⟩ => nomatch List.mem_singleton.mp hIn) nofun

theorem not_numeral_of_startsLabel {c : Char} (h : startsLabel c = true) :
    (Text.decimalValue? c).isSome = false ∧ c ≠ '-' ∧ c ≠ '+' ∧ Text.isNumeralBlank c = false := by
  have hAscii : c.toNat < 128 := by
    simp only [startsLabel, Text.isAsciiLetter, Bool.or_eq_true, Bool.and_eq_true,
      decide_eq_true_eq, beq_iff_eq] at h
    rcases h with ((⟨-, hSmall⟩ | ⟨-, hCapital⟩) | rfl) | rfl
    · exact Nat.lt_of_le_of_lt (show c.toNat ≤ 122 from hSmall) (by decide)
    · exact Nat.lt_of_le_of_lt (show c.toNat ≤ 90 from hCapital) (by decide)
    · decide
    · decide
  have hAll : ∀ n < 128, startsLabel (Char.ofNat n) = true →
      (Text.decimalValue? (Char.ofNat n)).isSome = false ∧ Char.ofNat n ≠ '-' ∧
        Char.ofNat n ≠ '+' ∧ Text.isNumeralBlank (Char.ofNat n) = false := by
    decide +kernel
  have hIs := hAll c.toNat hAscii
  rw [Char.ofNat_toNat] at hIs
  exact hIs h

/-- No number is an identifier. -/
theorem not_isIdentifier_of_number {n : Int} (h : Text.readInteger name = .ok n) :
    ¬ IsIdentifier name := by
  rintro ⟨c, rest, rfl, hStarts, -⟩
  obtain ⟨hDigit, hMinus, hPlus, hBlank⟩ := not_numeral_of_startsLabel hStarts
  rcases Text.readInteger_first h with hIs | hIs | hIs | hIs
  · exact Bool.false_ne_true (hDigit.symm.trans hIs)
  · exact hMinus hIs
  · exact hPlus hIs
  · exact Bool.false_ne_true (hBlank.symm.trans hIs)

end Text

section Items

variable {name : List Char}

theorem mem_itemsFrom_iff (hOther : ¬ IsIdentifier name) (first : Nat) (raws : List (List Char)) :
    (∃ line, .label line name ∈ itemsFrom first raws) ↔
      name ∈ (raws.map meaning).filterMap stray? := by
  induction raws generalizing first with
  | nil => exact iff_of_false (fun ⟨_, hIn⟩ => absurd hIn List.not_mem_nil) List.not_mem_nil
  | cons raw rest ih =>
      simp only [itemsFrom, List.mem_append, exists_or]
      rw [mem_itemsOfText_iff hOther, ih, List.map_cons, List.filterMap_cons]
      cases stray? (meaning raw) with
      | none => simp
      | some other => simp [eq_comm]

/-- A name that is no identifier is defined exactly by the lines that define it as a whole. -/
theorem mem_items_iff (hOther : ¬ IsIdentifier name) (source : List Char) :
    (∃ line, .label line name ∈ items source) ↔ name ∈ strays source :=
  mem_itemsFrom_iff hOther 1 _

/-- The table has the names of all labels. -/
theorem lookup_add {l l' : Layout} {item : Item} (h : l.add item = .ok l') :
    (l'.labels.lookup name).isSome ↔
      (l.labels.lookup name).isSome ∨ ∃ line, item = .label line name := by
  cases item with
  | label line other =>
      unfold Layout.add at h
      dsimp only at h
      split at h
      · cases h
      · cases h
        simp only [List.lookup_append, Option.isSome_or, Bool.or_eq_true, Item.label.injEq,
          exists_eq_left', List.lookup_isSome_iff, List.mem_singleton, exists_eq_left, beq_iff_eq]
        rw [eq_comm (a := name)]
  | statement line text =>
      obtain ⟨size, -, h⟩ := bind_ok h
      cases h
      exact (or_iff_left (fun ⟨_, hNot⟩ => nomatch hNot)).symm

theorem lookup_foldlM {items : List Item} {l l' : Layout}
    (h : items.foldlM Layout.add l = .ok l') :
    (l'.labels.lookup name).isSome ↔
      (l.labels.lookup name).isSome ∨ ∃ line, .label line name ∈ items := by
  induction items generalizing l with
  | nil =>
      cases h
      simp
  | cons item rest ih =>
      rw [List.foldlM_cons] at h
      obtain ⟨next, hAdd, h⟩ := bind_ok h
      rw [ih h, lookup_add hAdd, or_assoc, ← exists_or]
      simp only [List.mem_cons, eq_comm]

theorem lookup_layout {base : Int} {items : List Item} {l : Layout}
    (h : layout base items = .ok l) :
    (l.labels.lookup name).isSome ↔ ∃ line, .label line name ∈ items := by
  obtain ⟨final, hFinal, h⟩ := bind_ok h
  cases h
  rw [lookup_foldlM hFinal]
  exact or_iff_right nofun

end Items

section Program

variable {source name : List Char} {base : Int} {program : Program}

theorem lookup_iff_stray (h : assemble source base = .ok program) (hOther : ¬ IsIdentifier name) :
    (program.labels.lookup name).isSome ↔ name ∈ strays source := by
  obtain ⟨l, hLayout, hLabels, -⟩ := assemble_ok h
  rw [← mem_items_iff hOther source, hLabels]
  exact lookup_layout hLayout

/-- All names in the table are identifiers if and only if no line defines another one. -/
theorem identifiers_iff (h : assemble source base = .ok program) :
    (∀ entry ∈ program.labels, IsIdentifier entry.1) ↔ strays source = [] := by
  constructor
  · -- a stray name with the form of an identifier would have been taken off as a label
    intro hAll
    refine List.eq_nil_iff_forall_not_mem.mpr fun name hStray => ?_
    obtain ⟨line, -, hLine⟩ := List.mem_filterMap.mp hStray
    have hOther := not_isIdentifier_of_stray hLine
    obtain ⟨entry, hIn, hSame⟩ := List.lookup_isSome_iff.mp ((lookup_iff_stray h hOther).mpr hStray)
    rw [eq_of_beq hSame] at hOther
    exact hOther (hAll entry hIn)
  · intro hNone entry hIn
    by_contra hOther
    have hStray := (lookup_iff_stray h hOther).mp
      (List.lookup_isSome_iff.mpr ⟨entry, hIn, beq_self_eq_true _⟩)
    rw [hNone] at hStray
    cases hStray

end Program

end AccelPipe.Assembly

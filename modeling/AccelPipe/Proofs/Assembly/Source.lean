import AccelPipe.Assembly.Source
import AccelPipe.Proofs.Text.Blank
import Mathlib.Data.List.Basic
import Mathlib.Data.List.TakeWhile

/-! How source text falls into items. A line in plain characters is one statement, and its name
and its operands are found in it as they were written. -/
namespace AccelPipe.Assembly

/-! Labels and statements of one line. -/

/-- A label in front of a line is an item of its own. -/
theorem itemsOfText_label {line : Nat} {text name after : List Char}
    (h : leadingLabel? text = some (name, after)) :
    itemsOfText line text = .label line name :: itemsOfText line after := by
  rw [itemsOfText]
  split
  · rename_i hIs
    cases h.symm.trans hIs
    rfl
  · rename_i hIs
    cases h.symm.trans hIs

/-- A line without one is empty, a label or a statement. -/
theorem itemsOfText_of_none (line : Nat) {text : List Char} (h : leadingLabel? text = none) :
    itemsOfText line text =
      if text.isEmpty then []
      else if text.getLast? = some ':' then [.label line text.dropLast]
      else [.statement line text] := by
  rw [itemsOfText]
  split
  · rename_i hIs
    cases h.symm.trans hIs
  · rfl

theorem itemsOfText_nil (line : Nat) : itemsOfText line [] = [] := by
  rw [itemsOfText]
  rfl

/-- A text without a colon has no label in front. -/
theorem leadingLabel?_of_no_colon {text : List Char} (h : ':' ∉ text) :
    leadingLabel? text = none := by
  unfold leadingLabel?
  split
  · rfl
  · rename_i c rest
    split
    · split
      · rename_i after hAfter
        have hColon : ':' ∈ rest.dropWhile continuesLabel :=
          (Text.trimLeft_sublist _).subset (hAfter ▸ List.mem_cons_self)
        exact absurd (List.mem_cons_of_mem c ((List.dropWhile_sublist _).subset hColon)) h
      · rfl
    · rfl

/-- A text without a colon has no label. -/
theorem itemsOfText_of_no_colon (line : Nat) {text : List Char} (h : ':' ∉ text)
    (hSome : text ≠ []) : itemsOfText line text = [.statement line text] := by
  rw [itemsOfText_of_none line (leadingLabel?_of_no_colon h), if_neg (by simpa using hSome),
    if_neg fun hLast => h (List.mem_of_getLast? hLast)]

/-- What a line says does not depend on its indentation. -/
theorem meaning_indented (depth : Nat) (text : List Char) :
    meaning (List.replicate depth ' ' ++ text) = meaning text := by
  have hMark : ∀ mark, mark ≠ ' ' → ∀ c ∈ List.replicate depth ' ', (c != mark) = true := by
    intro mark hOther c hIn
    rw [List.eq_of_mem_replicate hIn]
    simpa using Ne.symm hOther
  have hBlank : ∀ c ∈ List.replicate depth ' ', Text.isBlank c = true := by
    intro c hIn
    rw [List.eq_of_mem_replicate hIn]
    rfl
  unfold meaning withoutComment Text.trim
  rw [List.takeWhile_append_of_pos (hMark ';' (by decide)),
    List.takeWhile_append_of_pos (hMark '#' (by decide))]
  exact congrArg Text.trimRight (List.dropWhile_append_of_pos hBlank)

/-- A line without comments and without blanks at its ends is all that it says. -/
theorem meaning_of_ends {text : List Char} (hSemicolon : ';' ∉ text) (hHash : '#' ∉ text)
    (hFirst : ∀ c ∈ text.head?, Text.isBlank c = false)
    (hLast : ∀ c ∈ text.getLast?, Text.isBlank c = false) : meaning text = text := by
  have hWhole : ∀ mark, mark ∉ text → withoutComment mark text = text := by
    intro mark hMark
    refine List.takeWhile_eq_self_iff.mpr fun c hIn => ?_
    have hOther : c ≠ mark := by
      rintro rfl
      exact hMark hIn
    simpa using hOther
  unfold meaning
  rw [hWhole ';' hSemicolon, hWhole '#' hHash]
  exact Text.trim_of_ends hFirst hLast

/-! Statements in plain characters. -/

/-- The characters of names and operands: none of them cuts a text. -/
def isPlain (c : Char) : Bool :=
  40 ≤ c.toNat && c.toNat ≤ 122 && c != ',' && c != ':' && c != ';'

/-- A name or an operand in plain characters. -/
structure Plain (token : List Char) : Prop where
  ne_nil : token ≠ []
  all : ∀ c ∈ token, isPlain c = true

theorem isBlank_of_isPlain {c : Char} (h : isPlain c = true) : Text.isBlank c = false := by
  have hRange : 40 ≤ c.toNat ∧ c.toNat ≤ 122 := by
    simp only [isPlain, Bool.and_eq_true, decide_eq_true_eq] at h
    omega
  unfold Text.isBlank
  simp only [Bool.or_eq_false_iff, Bool.and_eq_false_iff, decide_eq_false_iff_not]
  omega

/-- A statement as it is written: its operands follow its name, with a comma and a blank between
them. -/
def statementText (name : List Char) (ops : List (List Char)) : List Char :=
  if ops = [] then name else name ++ ' ' :: [',', ' '].intercalate ops

section Plain

variable {name token : List Char} {ops : List (List Char)}

theorem Plain.append {a b : List Char} (hA : Plain a) (hB : Plain b) : Plain (a ++ b) :=
  ⟨List.append_ne_nil_of_left_ne_nil hA.ne_nil b,
    fun c hIn => (List.mem_append.mp hIn).elim (hA.all c) (hB.all c)⟩

/-- A plain token has no blanks, -/
theorem Plain.not_blank (h : Plain token) : ∀ c ∈ token, Text.isBlank c = false :=
  fun c hIn => isBlank_of_isPlain (h.all c hIn)

/-- so trimming leaves it, -/
theorem Plain.trim (h : Plain token) : Text.trim token = token := Text.trim_of_solid h.not_blank

/-- even from behind a blank, -/
theorem Plain.trim_blank (h : Plain token) : Text.trim (' ' :: token) = token := h.trim

/-- and it has no commas. -/
theorem Plain.no_comma (h : Plain token) : ',' ∉ token :=
  fun hIn => absurd (h.all ',' hIn) (by decide)

/-- Characters of a joined text come from its parts or from between them. -/
theorem mem_intercalate {sep : List Char} {c : Char} (h : c ∈ sep.intercalate ops) :
    c ∈ sep ∨ ∃ token ∈ ops, c ∈ token := by
  induction ops with
  | nil => cases h
  | cons first rest ih =>
      cases rest with
      | nil =>
          rw [List.intercalate_singleton] at h
          exact .inr ⟨first, List.mem_singleton.mpr rfl, h⟩
      | cons second rest =>
          rw [List.intercalate_cons_cons] at h
          rcases List.mem_append.mp h with hFirst | hRest
          · rcases List.mem_append.mp hFirst with hToken | hSep
            · exact .inr ⟨first, List.mem_cons_self, hToken⟩
            · exact .inl hSep
          · rcases ih hRest with hSep | ⟨token, hIn, hToken⟩
            · exact .inl hSep
            · exact .inr ⟨token, List.mem_cons_of_mem first hIn, hToken⟩

/-- A list of operands ends with an operand. -/
theorem intercalate_last {sep : List Char} (hOps : ∀ token ∈ ops, Plain token) (hSome : ops ≠ []) :
    ∃ front last, Plain last ∧ sep.intercalate ops = front ++ last := by
  induction ops with
  | nil => exact absurd rfl hSome
  | cons first rest ih =>
      cases rest with
      | nil =>
          exact ⟨[], first, hOps first List.mem_cons_self, List.intercalate_singleton⟩
      | cons second rest =>
          obtain ⟨front, last, hLast, hRest⟩ :=
            ih (fun token hIn => hOps token (List.mem_cons_of_mem first hIn)) nofun
          refine ⟨first ++ sep ++ front, last, hLast, ?_⟩
          rw [List.intercalate_cons_cons, hRest, ← List.append_assoc]

/-- A joined text begins as its first part does. -/
theorem intercalate_first {sep : List Char} (hOps : ∀ token ∈ ops, Plain token) :
    ∀ c ∈ (sep.intercalate ops).head?, isPlain c = true := by
  intro c hIs
  cases ops with
  | nil => cases hIs
  | cons first rest =>
      have hFirst := hOps first List.mem_cons_self
      obtain ⟨d, others, rfl⟩ := List.exists_cons_of_ne_nil hFirst.ne_nil
      have hHead : (sep.intercalate ((d :: others) :: rest)).head? = some d := by
        cases rest with
        | nil => rw [List.intercalate_singleton]; rfl
        | cons second rest => rw [List.intercalate_cons_cons]; rfl
      rw [hHead] at hIs
      cases hIs
      exact hFirst.all c List.mem_cons_self

theorem Plain.letters (h : Plain token) : ∀ c ∈ token, (!Text.isBlank c) = true := fun c hIn => by
  rw [h.not_blank c hIn]
  rfl

/-- Nothing is trimmed in front of a plain token. -/
theorem Plain.trimLeft_append (h : Plain token) (rest : List Char) :
    Text.trimLeft (token ++ rest) = token ++ rest := by
  obtain ⟨c, others, rfl⟩ := List.exists_cons_of_ne_nil h.ne_nil
  exact Text.dropWhile_of_head fun d hFirst =>
    Option.some.inj hFirst ▸ h.not_blank c List.mem_cons_self

/-- A name ends at the blanks behind it, however many there are. -/
theorem nameAndRest_padded {gap rest : List Char} (hName : Plain name)
    (hLower : Text.lower name = name) (hSome : gap ≠ []) (hGap : ∀ c ∈ gap, Text.isBlank c = true)
    (hRest : ∀ c ∈ rest.head?, Text.isBlank c = false) :
    nameAndRest (name ++ (gap ++ rest)) = (name, rest) := by
  have hEnds : ∀ c ∈ (gap ++ rest).head?, (!Text.isBlank c) = false := by
    obtain ⟨c, others, rfl⟩ := List.exists_cons_of_ne_nil hSome
    intro d hFirst
    rw [← Option.some.inj hFirst, hGap c List.mem_cons_self]
    rfl
  have hNone : (gap ++ rest).takeWhile (!Text.isBlank ·) = [] := by
    obtain ⟨c, others, rfl⟩ := List.exists_cons_of_ne_nil hSome
    exact List.takeWhile_cons_of_neg (by simp [hGap c List.mem_cons_self])
  have hBehind : Text.trimLeft (gap ++ rest) = rest :=
    (List.dropWhile_append_of_pos hGap).trans (Text.dropWhile_of_head hRest)
  unfold nameAndRest Text.splitWord
  rw [hName.trimLeft_append]
  dsimp only
  rw [List.takeWhile_append_of_pos hName.letters, List.dropWhile_append_of_pos hName.letters,
    hNone, Text.dropWhile_of_head hEnds, hBehind, List.append_nil, hLower]

section Statement

variable (hName : Plain name) (hOps : ∀ token ∈ ops, Plain token)
include hName hOps

/-- A statement is made of plain characters, blanks and commas. -/
theorem mem_statementText {c : Char} (h : c ∈ statementText name ops) :
    isPlain c = true ∨ c = ' ' ∨ c = ',' := by
  unfold statementText at h
  split at h
  · exact .inl (hName.all c h)
  · rcases List.mem_append.mp h with hFront | hRest
    · exact .inl (hName.all c hFront)
    rcases List.mem_cons.mp hRest with hBlank | hRest
    · exact .inr (.inl hBlank)
    rcases mem_intercalate hRest with hSep | ⟨token, hIn, hToken⟩
    · rcases List.mem_cons.mp hSep with hComma | hBlank
      · exact .inr (.inr hComma)
      · exact .inr (.inl (List.mem_singleton.mp hBlank))
    · exact .inl ((hOps token hIn).all c hToken)

/-- A mark that is neither plain nor between operands does not occur. -/
theorem not_mem_statementText {c : Char} (h : isPlain c = false) (hBlank : c ≠ ' ')
    (hComma : c ≠ ',') : c ∉ statementText name ops := by
  intro hIn
  rcases mem_statementText hName hOps hIn with hPlain | hIs | hIs
  · exact Bool.false_ne_true (h.symm.trans hPlain)
  · exact hBlank hIs
  · exact hComma hIs

/-- It ends in a plain token, -/
theorem statementText_ends :
    ∃ front last, Plain last ∧ statementText name ops = front ++ last := by
  unfold statementText
  split
  · exact ⟨[], name, hName, rfl⟩
  · rename_i hSome
    obtain ⟨front, last, hLast, hIs⟩ : ∃ front last, Plain last ∧
        [',', ' '].intercalate ops = front ++ last := intercalate_last hOps hSome
    exact ⟨name ++ ' ' :: front, last, hLast, by rw [hIs, List.append_assoc]; rfl⟩

omit hOps in
/-- and it begins with a plain character. -/
theorem statementText_head (ops : List (List Char)) :
    ∃ c rest, isPlain c = true ∧ statementText name ops = c :: rest := by
  obtain ⟨c, rest, rfl⟩ := List.exists_cons_of_ne_nil hName.ne_nil
  have hFirst := hName.all c List.mem_cons_self
  unfold statementText
  split
  · exact ⟨c, rest, hFirst, rfl⟩
  · exact ⟨c, _, hFirst, rfl⟩

theorem statementText_last :
    ∀ c ∈ (statementText name ops).getLast?, isPlain c = true := by
  obtain ⟨front, last, hLast, hText⟩ := statementText_ends hName hOps
  intro c hIs
  rw [hText, List.getLast?_append_of_ne_nil _ hLast.ne_nil] at hIs
  exact hLast.all c (List.mem_of_getLast? hIs)

/-- A plain statement is all that its line says. -/
theorem meaning_statementText :
    meaning (statementText name ops) = statementText name ops := by
  refine meaning_of_ends (not_mem_statementText hName hOps rfl (by decide) (by decide))
    (not_mem_statementText hName hOps rfl (by decide) (by decide)) (fun c hFirst => ?_)
    (fun c hLast => isBlank_of_isPlain (statementText_last hName hOps c hLast))
  obtain ⟨first, rest, hPlain, hText⟩ := statementText_head hName ops
  rw [hText] at hFirst
  cases hFirst
  exact isBlank_of_isPlain hPlain

/-- The text of a statement is one item. -/
theorem itemsOfText_statementText (line : Nat) :
    itemsOfText line (statementText name ops) = [.statement line (statementText name ops)] := by
  obtain ⟨first, rest, -, hText⟩ := statementText_head hName ops
  exact itemsOfText_of_no_colon line
    (not_mem_statementText hName hOps rfl (by decide) (by decide)) (hText ▸ List.cons_ne_nil _ _)

/-- Its name is told from its operands by the first blank. -/
theorem nameAndRest_statementText (hLower : Text.lower name = name) :
    nameAndRest (statementText name ops) = (name, [',', ' '].intercalate ops) := by
  unfold statementText
  split
  · rename_i hNone
    have hStart := hName.trimLeft_append []
    rw [List.append_nil] at hStart
    unfold nameAndRest Text.splitWord
    rw [hStart]
    dsimp only
    rw [List.takeWhile_eq_self_iff.mpr hName.letters, List.dropWhile_eq_nil_iff.mpr hName.letters,
      hNone, hLower]
    rfl
  · exact nameAndRest_padded hName hLower (List.cons_ne_nil ' ' [])
      (List.forall_mem_singleton.mpr rfl) fun c hFirst =>
        isBlank_of_isPlain (intercalate_first hOps c hFirst)

end Statement

/-- Operands that are joined by commas are split at them again. -/
theorem trim_splitOn_intercalate (hOps : ∀ token ∈ ops, Plain token) (hSome : ops ≠ [])
    {before : List Char} (hBlank : before = [] ∨ before = [' ']) :
    ((before ++ [',', ' '].intercalate ops).splitOn ',').map Text.trim = ops := by
  induction ops generalizing before with
  | nil => exact absurd rfl hSome
  | cons first rest ih =>
      have hFirst := hOps first List.mem_cons_self
      have hNoComma : ',' ∉ before ++ first := by
        rcases hBlank with rfl | rfl
        · exact hFirst.no_comma
        · simpa using hFirst.no_comma
      have hTrim : Text.trim (before ++ first) = first := by
        rcases hBlank with rfl | rfl
        · exact hFirst.trim
        · exact hFirst.trim_blank
      cases rest with
      | nil =>
          rw [List.intercalate_singleton, List.splitOn_eq_singleton hNoComma, List.map_singleton,
            hTrim]
      | cons second rest =>
          have hRest := ih (fun token hIn => hOps token (List.mem_cons_of_mem first hIn)) nofun
            (.inr rfl)
          have hCut : before ++ [',', ' '].intercalate (first :: second :: rest) =
              (before ++ first) ++ ',' :: ([' '] ++ [',', ' '].intercalate (second :: rest)) := by
            rw [List.intercalate_cons_cons, List.append_assoc, List.append_assoc]
            rfl
          rw [hCut, List.splitOn_append_cons_self_of_not_mem hNoComma, List.map_cons, hTrim, hRest]

/-- The operands of a plain statement are found as they were written. -/
theorem operands_intercalate (hOps : ∀ token ∈ ops, Plain token) :
    operands ([',', ' '].intercalate ops) = ops := by
  unfold operands
  by_cases hSome : ops = []
  · rw [hSome]
    rfl
  · have hPieces := trim_splitOn_intercalate hOps hSome (.inl rfl)
    rw [List.nil_append] at hPieces
    rw [hPieces]
    refine List.filter_eq_self.mpr fun token hIn => ?_
    simpa using (hOps token hIn).ne_nil

end Plain

end AccelPipe.Assembly

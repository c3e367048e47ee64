import AccelPipe.Proofs.Text.Numeral

/-! Numerals in columns. They are read back whatever the width of their column is, in small
letters and in capitals. -/
namespace AccelPipe.Text

theorem toUpper_digitChar {d : Nat} (h : d < 16) :
    (Nat.digitChar d).toUpper ≠ '_' ∧ digitValue? (Nat.digitChar d).toUpper = some d ∧
      (Nat.digitChar d).toUpper ≠ ' ' := by
  interval_cases d <;> decide

theorem more_upper {text : List Char} (h : ∀ c ∈ text, ∃ d < 16, c = Nat.digitChar d)
    (value : Nat) :
    readDigits.more 16 value (text.map Char.toUpper) = readDigits.more 16 value text := by
  induction text generalizing value with
  | nil => rfl
  | cons c rest ih =>
      obtain ⟨⟨d, hDigit, rfl⟩, hRest⟩ := List.forall_mem_cons.mp h
      obtain ⟨hMark, hValue, -⟩ := toUpper_digitChar hDigit
      rw [more_digit hDigit (by decide), List.map_cons, readDigits.more.eq_3 _ _ _ _ hMark, hValue]
      exact (if_pos hDigit).trans (ih hRest _)

/-- Digits are read in capital letters as well. -/
theorem readDigits_upper {text : List Char} (h : ∀ c ∈ text, ∃ d < 16, c = Nat.digitChar d) :
    readDigits 16 (text.map Char.toUpper) = readDigits 16 text := by
  cases text with
  | nil => rfl
  | cons c rest =>
      obtain ⟨⟨d, hDigit, rfl⟩, hRest⟩ := List.forall_mem_cons.mp h
      unfold readDigits
      rw [List.map_cons, readDigits.start, readDigits.start, digitValue?_digitChar hDigit,
        (toUpper_digitChar hDigit).2.1]
      dsimp only
      rw [if_pos hDigit, if_pos hDigit, more_upper hRest]

/-- The digits of a column stand after as many zeros as the width asks for. -/
theorem toList_column (width : Nat) (digits : List Char) (v : Int) :
    ∃ count, (zeroFilled width "" (String.ofList digits) v).toList =
      (minus v).toList ++ (List.replicate count '0' ++ digits) := by
  unfold zeroFilled
  simp only [String.toList_append, String.toList_ofList, String.append_empty, List.append_assoc]
  exact ⟨_, rfl⟩

theorem readDigits_hexColumn (width n : Nat) :
    readDigits 16 (hexColumn width n).toList = some n := by
  obtain ⟨count, hText⟩ := toList_column width (Nat.toDigits 16 n) n
  unfold hexColumn hexDigits
  rw [Int.natAbs_natCast, hText]
  unfold minus
  rw [if_neg (by omega)]
  exact readDigits_toDigits (by decide) (by decide) count n

theorem digits_of_zeros (count n : Nat) :
    ∀ c ∈ List.replicate count '0' ++ Nat.toDigits 16 n, ∃ d < 16, c = Nat.digitChar d := by
  intro c hIn
  rcases List.mem_append.mp hIn with hZero | hDigit
  · exact ⟨0, by decide, List.eq_of_mem_replicate hZero⟩
  · exact mem_toDigits (by decide) hDigit

theorem toList_upperHexColumn (width : Nat) (v : Int) :
    ∃ count, (upperHexColumn width v).toList = (minus v).toList ++
      (List.replicate count '0' ++ Nat.toDigits 16 v.natAbs).map Char.toUpper := by
  obtain ⟨count, hText⟩ := toList_column width ((Nat.toDigits 16 v.natAbs).map Char.toUpper) v
  refine ⟨count, hText.trans ?_⟩
  rw [List.map_append, List.map_replicate]
  rfl

theorem readDigits_upperHexColumn (width n : Nat) :
    readDigits 16 (upperHexColumn width n).toList = some n := by
  obtain ⟨count, hText⟩ := toList_upperHexColumn width n
  rw [hText]
  unfold minus
  rw [if_neg (by omega)]
  exact (readDigits_upper (digits_of_zeros count n)).trans
    (readDigits_toDigits (by decide) (by decide) count n)

/-- No column starts with a blank. -/
theorem upperHexColumn_start (width : Nat) (v : Int) :
    ∃ c rest, (upperHexColumn width v).toList = c :: rest ∧ c ≠ ' ' := by
  obtain ⟨count, hText⟩ := toList_upperHexColumn width v
  obtain ⟨d, rest, hDigit, -, hDigits⟩ := toDigits_cons (show 1 < 16 by decide) v.natAbs
  rw [hText, hDigits]
  unfold minus
  split
  · exact ⟨'-', _, rfl, by decide⟩
  · cases count with
    | zero => exact ⟨_, _, rfl, (toUpper_digitChar hDigit).2.2⟩
    | succ count => exact ⟨'0', _, rfl, by decide⟩

end AccelPipe.Text

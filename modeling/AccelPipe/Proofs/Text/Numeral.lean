import AccelPipe.Proofs.Text.Blank
import AccelPipe.Text.Numeral
import Mathlib.Tactic.IntervalCases

/-! A number that has been written is read back, in decimal with and without its sign, and in
hexadecimal with leading zeros. What starts neither with a digit nor with a sign is no number. -/
namespace AccelPipe.Text

/-! Digits. -/

theorem decimalValue?_digitChar {d : Nat} (h : d < 10) :
    decimalValue? (Nat.digitChar d) = some d := by
  interval_cases d <;> rfl

theorem digitValue?_digitChar {d : Nat} (h : d < 16) :
    digitValue? (Nat.digitChar d) = some d := by
  interval_cases d <;> rfl

theorem digitChar_ne_underscore {d : Nat} (h : d < 16) : Nat.digitChar d ≠ '_' := by
  interval_cases d <;> decide

/-- The last digit comes after those of the number without it. -/
theorem toDigits_snoc {b n : Nat} (hBase : 1 < b) (h : b ≤ n) :
    Nat.toDigits b n = Nat.toDigits b (n / b) ++ [Nat.digitChar (n % b)] :=
  Nat.toDigits_of_base_le hBase h

/-- A number is written with at least one digit, and the first one is zero only if it is. -/
theorem toDigits_cons {b : Nat} (hBase : 1 < b) (n : Nat) :
    ∃ d rest, d < b ∧ (0 < n → 0 < d) ∧ Nat.toDigits b n = Nat.digitChar d :: rest := by
  induction n using Nat.strongRecOn with
  | ind n ih =>
      by_cases hSmall : n < b
      · exact ⟨n, [], hSmall, id, Nat.toDigits_of_lt_base hSmall⟩
      · have hLess : n / b < n := Nat.div_lt_self (by omega) hBase
        obtain ⟨d, rest, hDigit, hPos, hDigits⟩ := ih _ hLess
        rw [toDigits_snoc hBase (by omega), hDigits]
        exact ⟨d, _, hDigit, fun _ => hPos (Nat.div_pos (by omega) (by omega)), rfl⟩

/-- A numeral has digits only. -/
theorem mem_toDigits {b : Nat} (hBase : 1 < b) {n : Nat} {c : Char}
    (h : c ∈ Nat.toDigits b n) : ∃ d < b, c = Nat.digitChar d := by
  induction n using Nat.strongRecOn with
  | ind n ih =>
      by_cases hSmall : n < b
      · rw [Nat.toDigits_of_lt_base hSmall] at h
        exact ⟨n, hSmall, List.mem_singleton.mp h⟩
      · rw [toDigits_snoc hBase (by omega)] at h
        rcases List.mem_append.mp h with hFront | hLast
        · exact ih _ (Nat.div_lt_self (by omega) hBase) hFront
        · exact ⟨n % b, Nat.mod_lt n (by omega), List.mem_singleton.mp hLast⟩

/-! Digits of one radix. -/

section Radix

variable {b : Nat}

/-- Another digit multiplies what has been read by the radix. -/
theorem more_digit {d : Nat} (hDigit : d < b) (hRadix : b ≤ 16) (value : Nat) (tail : List Char) :
    readDigits.more b value (Nat.digitChar d :: tail) =
      readDigits.more b (value * b + d) tail := by
  have hRange : d < 16 := by omega
  rw [readDigits.more.eq_3 _ _ _ _ (digitChar_ne_underscore hRange), digitValue?_digitChar hRange]
  exact if_pos hDigit

/-- The digits of a number are read as the number. -/
theorem more_toDigits (hBase : 1 < b) (hRadix : b ≤ 16) (n : Nat) (tail : List Char) :
    readDigits.more b 0 (Nat.toDigits b n ++ tail) = readDigits.more b n tail := by
  induction n using Nat.strongRecOn generalizing tail with
  | ind n ih =>
      by_cases hSmall : n < b
      · rw [Nat.toDigits_of_lt_base hSmall, List.singleton_append, more_digit hSmall hRadix,
          Nat.zero_mul, Nat.zero_add]
      · have hLess : n / b < n := Nat.div_lt_self (by omega) hBase
        rw [toDigits_snoc hBase (by omega), List.append_assoc, ih _ hLess, List.singleton_append,
          more_digit (Nat.mod_lt n (by omega)) hRadix, Nat.div_add_mod']

/-- Zeros in front change nothing. -/
theorem more_zeros (hBase : 1 < b) (hRadix : b ≤ 16) (count : Nat) (tail : List Char) :
    readDigits.more b 0 (List.replicate count '0' ++ tail) = readDigits.more b 0 tail := by
  induction count with
  | zero => rfl
  | succ count ih =>
      rw [List.replicate_succ, List.cons_append]
      exact (more_digit (d := 0) (by omega) hRadix 0 _).trans (by rw [Nat.zero_mul]; exact ih)

/-- Leading zeros make no difference. -/
theorem readDigits_toDigits (hBase : 1 < b) (hRadix : b ≤ 16) (count n : Nat) :
    readDigits b (List.replicate count '0' ++ Nat.toDigits b n) = some n := by
  have hMore : readDigits.more b 0 (List.replicate count '0' ++ Nat.toDigits b n) = some n := by
    rw [more_zeros hBase hRadix]
    have hAll := more_toDigits hBase hRadix n []
    rwa [List.append_nil] at hAll
  have hStart : ∀ {d : Nat} (rest : List Char), d < b →
      readDigits b (Nat.digitChar d :: rest) = readDigits.more b 0 (Nat.digitChar d :: rest) := by
    intro d rest hDigit
    rw [more_digit hDigit hRadix]
    unfold readDigits
    rw [readDigits.start, digitValue?_digitChar (by omega)]
    exact if_pos hDigit
  rw [← hMore]
  cases count with
  | zero =>
      obtain ⟨d, rest, hDigit, -, hDigits⟩ := toDigits_cons hBase n
      rw [List.replicate_zero, List.nil_append, hDigits]
      exact hStart rest hDigit
  | succ count => exact hStart _ (show 0 < b by omega)

end Radix

/-! Decimal digits. -/

/-- A decimal digit goes to the front of those that have been read. -/
theorem run_digit {d : Nat} (h : d < 10) (digits : List Nat) (tail : List Char) :
    decimalRun.more digits (Nat.digitChar d :: tail) = decimalRun.more (d :: digits) tail := by
  rw [decimalRun.more.eq_3 _ _ _ (digitChar_ne_underscore (by omega)), decimalValue?_digitChar h]

/-- The number that some decimal digits stand for, the last one first. -/
def valueOf (digits : List Nat) : Nat := digits.foldr (fun d value => value * 10 + d) 0

/-- Decimal digits are collected last to first. -/
theorem run_toDigits (n : Nat) :
    ∃ digits, digits.length = (Nat.toDigits 10 n).length ∧ valueOf digits = n ∧
      ∀ (before : List Nat) (tail : List Char),
        decimalRun.more before (Nat.toDigits 10 n ++ tail) =
          decimalRun.more (digits ++ before) tail := by
  induction n using Nat.strongRecOn with
  | ind n ih =>
      by_cases hSmall : n < 10
      · refine ⟨[n], ?_, ?_, fun before tail => ?_⟩
        · rw [Nat.toDigits_of_lt_base hSmall]
          rfl
        · exact Nat.zero_add n
        · rw [Nat.toDigits_of_lt_base hSmall]
          exact run_digit hSmall before tail
      · have hLess : n / 10 < n := Nat.div_lt_self (by omega) (by decide)
        obtain ⟨digits, hLength, hValue, hRun⟩ := ih _ hLess
        have hSnoc := toDigits_snoc (show 1 < 10 by decide) (Nat.le_of_not_lt hSmall)
        refine ⟨n % 10 :: digits, ?_, ?_, fun before tail => ?_⟩
        · rw [hSnoc, List.length_append, ← hLength]
          rfl
        · change valueOf digits * 10 + n % 10 = n
          rw [hValue]
          exact Nat.div_add_mod' n 10
        · rw [hSnoc, List.append_assoc, hRun]
          exact run_digit (Nat.mod_lt n (by decide)) _ tail

/-- Decimal digits are read as one run, however many there are. -/
theorem decimalRun_toDigits (n : Nat) :
    ∃ digits, digits.length = (Nat.toDigits 10 n).length ∧ valueOf digits = n ∧
      decimalRun (Nat.toDigits 10 n) = some (digits, []) := by
  obtain ⟨digits, hLength, hValue, hRun⟩ := run_toDigits n
  refine ⟨digits, hLength, hValue, ?_⟩
  have hMore := hRun [] []
  rw [List.append_nil, List.append_nil] at hMore
  obtain ⟨d, rest, hDigit, -, hDigits⟩ := toDigits_cons (b := 10) (by decide) n
  rw [hDigits, run_digit hDigit] at hMore
  rw [hDigits]
  unfold decimalRun
  rw [decimalRun.start, decimalValue?_digitChar hDigit]
  exact hMore

/-- A decimal numeral that is not too long is read back. -/
theorem readDecimalDigits_toDigits {n : Nat}
    (hShort : (Nat.toDigits 10 n).length ≤ maxDecimalDigits) :
    readDecimalDigits (Nat.toDigits 10 n) = .ok n := by
  obtain ⟨digits, hLength, hValue, hAll⟩ := decimalRun_toDigits n
  unfold readDecimalDigits
  rw [hAll]
  dsimp only
  rw [if_neg (by omega)]
  exact congrArg Except.ok hValue

/-- One that is too long is refused with its length. -/
theorem readDecimalDigits_long {n : Nat}
    (hLong : maxDecimalDigits < (Nat.toDigits 10 n).length) :
    readDecimalDigits (Nat.toDigits 10 n) = .error (.tooLong (Nat.toDigits 10 n).length) := by
  obtain ⟨digits, hLength, -, hAll⟩ := decimalRun_toDigits n
  unfold readDecimalDigits
  rw [hAll]
  dsimp only
  rw [hLength, if_pos hLong]

/-- Decimal digits have neither a mark nor a leading zero that would be refused. -/
theorem readMarked_decimal (n : Nat) :
    readMarked (Nat.toDigits 10 n) = readDecimalDigits (Nat.toDigits 10 n) := by
  obtain ⟨d, rest, hDigit, hPos, hDigits⟩ := toDigits_cons (b := 10) (by decide) n
  cases rest with
  | nil =>
      rw [hDigits]
      rfl
  | cons m rest =>
      have hNumber : 0 < n := by
        apply Nat.pos_of_ne_zero
        rintro rfl
        rw [Nat.toDigits_zero] at hDigits
        cases (List.cons.inj hDigits).2
      have hFirst : isZeroDigit (Nat.digitChar d) = false := by
        unfold isZeroDigit
        rw [decimalValue?_digitChar hDigit]
        have hNot := hPos hNumber
        simp
        omega
      rw [hDigits, readMarked, hFirst]
      rfl

/-! Numbers with their signs and marks. -/

/-- Text with neither a blank nor a sign in it. -/
def Bare (text : List Char) : Prop :=
  ∀ c ∈ text, isNumeralBlank c = false ∧ c ≠ '-' ∧ c ≠ '+'

theorem bare_digitChar {d : Nat} (h : d < 16) :
    isNumeralBlank (Nat.digitChar d) = false ∧ Nat.digitChar d ≠ '-' ∧ Nat.digitChar d ≠ '+' := by
  interval_cases d <;> decide

/-- Digits are bare. -/
theorem bare_toDigits {b : Nat} (hBase : 1 < b) (hRadix : b ≤ 16) (n : Nat) :
    Bare (Nat.toDigits b n) := by
  intro c hIn
  obtain ⟨d, hDigit, rfl⟩ := mem_toDigits hBase hIn
  exact bare_digitChar (by omega)

section Signs

variable {magnitude : List Char → Except NumeralFault Nat} {body : List Char} {n : Nat}

theorem readSigned_of_solid {text : List Char} (h : ∀ c ∈ text, isNumeralBlank c = false) :
    ((text.dropWhile isNumeralBlank).reverse.dropWhile isNumeralBlank).reverse = text :=
  dropBoth_of_ends (fun c hFirst => h c (List.mem_of_head? hFirst))
    (fun c hLast => h c (List.mem_of_getLast? hLast))

/-- A minus sign negates what stands behind it. -/
theorem readSigned_minus (hBare : Bare body) :
    readSigned magnitude ('-' :: body) = (magnitude body).map fun n => -(n : Int) := by
  unfold readSigned
  rw [readSigned_of_solid]
  · rfl
  · intro c hIn
    rcases List.mem_cons.mp hIn with rfl | hBody
    · rfl
    · exact (hBare c hBody).1

theorem readSigned_plus (hBare : Bare body) :
    readSigned magnitude ('+' :: body) = (magnitude body).map Int.ofNat := by
  unfold readSigned
  rw [readSigned_of_solid]
  · rfl
  · intro c hIn
    rcases List.mem_cons.mp hIn with rfl | hBody
    · rfl
    · exact (hBare c hBody).1

/-- Without a sign, the magnitude is the number. -/
theorem readSigned_bare (hBare : Bare body) :
    readSigned magnitude body = (magnitude body).map Int.ofNat := by
  unfold readSigned
  rw [readSigned_of_solid fun c hIn => (hBare c hIn).1]
  dsimp only
  split
  · exact absurd rfl (hBare '-' List.mem_cons_self).2.1
  · exact absurd rfl (hBare '+' List.mem_cons_self).2.2
  · rfl

/-- The magnitude of a number, behind its sign, is read as the number. -/
theorem readSigned_of_magnitude (hBare : Bare body) {v : Int} (h : magnitude body = .ok v.natAbs) :
    readSigned magnitude ((minus v).toList ++ body) = .ok v := by
  unfold minus
  split
  · refine (readSigned_minus hBare).trans ?_
    rw [h]
    exact congrArg Except.ok (show -(v.natAbs : Int) = v by omega)
  · refine (readSigned_bare hBare).trans ?_
    rw [h]
    exact congrArg Except.ok (show (v.natAbs : Int) = v by omega)

/-- A magnitude that is refused is refused with a sign, too. -/
theorem readSigned_of_fault (hBare : Bare body) (v : Int) {fault : NumeralFault}
    (h : magnitude body = .error fault) :
    readSigned magnitude ((minus v).toList ++ body) = .error fault := by
  unfold minus
  split
  · refine (readSigned_minus hBare).trans ?_
    rw [h]
    rfl
  · refine (readSigned_bare hBare).trans ?_
    rw [h]
    rfl

end Signs

section Integers

variable {v : Int}

/-- Every integer of a word's size has a decimal text. -/
theorem writable_of_lt {v : Int} (h : v.natAbs < 0x100000000) : isWritable v = true := by
  have hMore : 10 ^ 10 ≤ 10 ^ maxDecimalDigits := Nat.pow_le_pow_right (by decide) (by decide)
  unfold isWritable
  rw [decide_eq_true_iff, Nat.pow_eq]
  omega

/-- A number that can be written has few enough digits. -/
theorem length_toDigits_of_writable (h : isWritable v = true) :
    (Nat.toDigits 10 v.natAbs).length ≤ maxDecimalDigits := by
  unfold isWritable at h
  have hSome : 0 < maxDecimalDigits := by decide
  -- the bound is a number too long to be written out
  obtain ⟨count, hCount⟩ : ∃ count, count = maxDecimalDigits := ⟨_, rfl⟩
  rw [← hCount] at h hSome ⊢
  exact (Nat.length_toDigits_le_iff (by decide) hSome).mpr (of_decide_eq_true h)

/-- One that cannot has too many. -/
theorem length_toDigits_of_not_writable (h : isWritable v = false) :
    maxDecimalDigits < (Nat.toDigits 10 v.natAbs).length := by
  unfold isWritable at h
  have hSome : 0 < maxDecimalDigits := by decide
  obtain ⟨count, hCount⟩ : ∃ count, count = maxDecimalDigits := ⟨_, rfl⟩
  rw [← hCount] at h hSome ⊢
  rw [← Nat.not_le, Nat.length_toDigits_le_iff (by decide) hSome]
  exact of_decide_eq_false h

theorem toList_decimal (v : Int) :
    (decimal v).toList = (minus v).toList ++ Nat.toDigits 10 v.natAbs := by
  unfold decimal
  rw [String.toList_append, String.toList_ofList]

theorem bare_decimal (v : Int) : Bare (Nat.toDigits 10 v.natAbs) :=
  bare_toDigits (by decide) (by decide) v.natAbs

/-- What can be written is read back without its sign. -/
theorem readMarked_of_writable (h : isWritable v = true) :
    readMarked (Nat.toDigits 10 v.natAbs) = .ok v.natAbs :=
  (readMarked_decimal v.natAbs).trans (readDecimalDigits_toDigits (length_toDigits_of_writable h))

/-- An integer that has a decimal text is read back from it. -/
theorem readInteger_decimal (h : isWritable v = true) :
    readInteger (decimal v).toList = .ok v := by
  rw [toList_decimal]
  exact readSigned_of_magnitude (bare_decimal v) (readMarked_of_writable h)

/-- Very large numbers cannot be written in decimal digits. -/
theorem not_writable_of_le {n : Nat} (h : Nat.pow 10 maxDecimalDigits ≤ n) :
    isWritable n = false := by
  unfold isWritable
  rw [Int.natAbs_natCast]
  exact decide_eq_false (Nat.not_lt.mpr h)

/-- The decimal digits of any other are too many to be read. -/
theorem readInteger_decimal_long (h : isWritable v = false) :
    readInteger (decimal v).toList = .error (.tooLong (Nat.toDigits 10 v.natAbs).length) := by
  rw [toList_decimal]
  exact readSigned_of_fault (bare_decimal v) v ((readMarked_decimal v.natAbs).trans
    (readDecimalDigits_long (length_toDigits_of_not_writable h)))

/-- A number with its sign is read back. -/
theorem readInteger_signedDecimal (h : isWritable v = true) :
    readInteger (signedDecimal v).toList = .ok v := by
  unfold signedDecimal
  split
  · exact readInteger_decimal h
  · rename_i hPos
    unfold decimal minus
    rw [if_neg hPos]
    simp only [String.toList_append, String.toList_ofList, String.toList_empty, List.nil_append]
    change readSigned readMarked ('+' :: Nat.toDigits 10 v.natAbs) = _
    rw [readSigned_plus (bare_decimal v), readMarked_of_writable h]
    exact congrArg Except.ok (show (v.natAbs : Int) = v by omega)

/-- Hexadecimal digits behind their mark, with so many zeros in front of them. -/
def marked (count n : Nat) : List Char :=
  '0' :: 'x' :: (List.replicate count '0' ++ Nat.toDigits 16 n)

/-- Hexadecimal digits stand behind their mark, after as many zeros as the width asks for. -/
theorem toList_zeroFilled (width n : Nat) :
    ∃ count, (zeroFilled width "0x" (hexDigits n) n).toList = marked count n := by
  unfold zeroFilled minus hexDigits
  rw [if_neg (by omega)]
  simp only [String.toList_append, String.toList_ofList]
  exact ⟨_, rfl⟩

theorem toList_hex (v : Int) : (hex v).toList = (minus v).toList ++ marked 0 v.natAbs := by
  unfold hex zeroFilled hexDigits
  dsimp only
  rw [Nat.zero_sub, Nat.zero_sub]
  simp only [String.toList_append, String.toList_ofList, List.replicate_zero, List.append_nil,
    List.append_assoc]
  rfl

theorem bare_marked (count n : Nat) : Bare (marked count n) := by
  intro c hIn
  rcases List.mem_cons.mp hIn with rfl | hIn
  · decide
  rcases List.mem_cons.mp hIn with rfl | hIn
  · decide
  rcases List.mem_append.mp hIn with hZero | hDigit
  · rw [List.eq_of_mem_replicate hZero]
    decide
  · exact bare_toDigits (by decide) (by decide) n c hDigit

/-- Hexadecimal digits are read, however many there are. -/
theorem readMarked_marked (count n : Nat) : readMarked (marked count n) = .ok n := by
  have hSkip : skipUnderscore (List.replicate count '0' ++ Nat.toDigits 16 n) =
      List.replicate count '0' ++ Nat.toDigits 16 n := by
    unfold skipUnderscore
    split
    · rename_i rest hIs
      have hUnderscore : '_' ∈ List.replicate count '0' ++ Nat.toDigits 16 n := by
        rw [hIs]
        exact List.mem_cons_self
      rcases List.mem_append.mp hUnderscore with hZero | hDigit
      · cases List.eq_of_mem_replicate hZero
      · obtain ⟨d, hRange, hIsDigit⟩ := mem_toDigits (by decide) hDigit
        exact absurd hIsDigit.symm (digitChar_ne_underscore hRange)
    · rfl
  have hRead : readDigits 16 (skipUnderscore (List.replicate count '0' ++ Nat.toDigits 16 n)) =
      some n := by
    rw [hSkip, readDigits_toDigits (by decide) (by decide)]
  unfold marked readMarked
  dsimp only
  rw [if_pos (by decide), show radixOfMark 'x' = some 16 from rfl]
  dsimp only
  rw [hRead]

/-- A number in hexadecimal is read back, whatever zeros stand in front. -/
theorem readInteger_zeroFilled (width n : Nat) :
    readInteger (zeroFilled width "0x" (hexDigits n) n).toList = .ok (n : Int) := by
  obtain ⟨count, hText⟩ := toList_zeroFilled width n
  rw [hText]
  exact readSigned_of_magnitude (v := n) (bare_marked count n) (readMarked_marked count n)

/-- Every integer is read back from its hexadecimal text. -/
theorem readInteger_hex (v : Int) : readInteger (hex v).toList = .ok v := by
  rw [toList_hex]
  exact readSigned_of_magnitude (bare_marked 0 v.natAbs) (readMarked_marked 0 v.natAbs)

end Integers

/-! Where a number starts. -/

/-- Trimming at the end leaves the first character unless it is blank. -/
theorem trimEnd_cons {p : Char → Bool} {c : Char} (h : p c = false) (rest : List Char) :
    ∃ others, ((c :: rest).reverse.dropWhile p).reverse = c :: others := by
  rw [List.reverse_cons, List.dropWhile_append]
  split
  · refine ⟨[], ?_⟩
    rw [List.dropWhile_cons_of_neg (Bool.eq_false_iff.mp h)]
    rfl
  · exact ⟨(rest.reverse.dropWhile p).reverse, List.reverse_append⟩

/-- A number starts with a digit, with a sign, or with a blank. -/
theorem readInteger_first {c : Char} {rest : List Char} {n : Int}
    (h : readInteger (c :: rest) = .ok n) :
    (decimalValue? c).isSome ∨ c = '-' ∨ c = '+' ∨ isNumeralBlank c = true := by
  by_contra hNone
  obtain ⟨hDigit, hMinus, hPlus, hBlank⟩ : decimalValue? c = none ∧ c ≠ '-' ∧ c ≠ '+' ∧
      isNumeralBlank c = false := by simpa using hNone
  obtain ⟨others, hText⟩ := trimEnd_cons hBlank rest
  have hRun : readDecimalDigits (c :: others) = .error .malformed := by
    unfold readDecimalDigits decimalRun decimalRun.start
    rw [hDigit]
  have hMarked : readMarked (c :: others) = .error .malformed := by
    unfold readMarked
    split
    · rename_i hIs
      obtain ⟨rfl, rfl⟩ := List.cons.inj hIs
      rw [if_neg (by unfold isZeroDigit; rw [hDigit]; decide)]
      exact hRun
    · exact hRun
  unfold readInteger readSigned at h
  rw [List.dropWhile_cons_of_neg (Bool.eq_false_iff.mp hBlank), hText] at h
  dsimp only at h
  split at h
  · rename_i hIs
    exact hMinus (List.cons.inj hIs).1
  · rename_i hIs
    exact hPlus (List.cons.inj hIs).1
  · rw [hMarked] at h
    cases h

end AccelPipe.Text

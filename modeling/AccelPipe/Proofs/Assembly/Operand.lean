import AccelPipe.Assembly.Operand
import AccelPipe.Instruction.Render
import AccelPipe.Proofs.Assembly.Source
import AccelPipe.Proofs.Except
import AccelPipe.Proofs.Text.Numeral

/-! The operands of a written instruction are read back: registers, numbers in each form, and
memory operands. -/
namespace AccelPipe.Assembly

open Instruction

/-! All operands are written in plain characters. -/

theorem isPlain_digitChar {d : Nat} (h : d < 16) : isPlain (Nat.digitChar d) = true := by
  interval_cases d <;> rfl

/-- Numerals are plain tokens, -/
theorem plain_toDigits {b : Nat} (hBase : 1 < b) (hRadix : b ≤ 16) (n : Nat) :
    Plain (Nat.toDigits b n) where
  ne_nil := List.ne_nil_of_length_pos Nat.length_toDigits_pos
  all c hIn := by
    obtain ⟨d, hDigit, rfl⟩ := Text.mem_toDigits hBase hIn
    exact isPlain_digitChar (by omega)

theorem Plain.cons {c : Char} {token : List Char} (hFirst : isPlain c = true)
    (h : Plain token) : Plain (c :: token) :=
  ⟨nofun, List.forall_mem_cons.mpr ⟨hFirst, h.all⟩⟩

/-- A sign in front of plain text is plain, too. -/
theorem plain_minus (v : Int) {body : List Char} (h : Plain body) :
    Plain ((Text.minus v).toList ++ body) := by
  unfold Text.minus
  split
  · exact Plain.cons rfl h
  · exact h

/-- with their signs, -/
theorem plain_decimal (v : Int) : Plain (Text.decimal v).toList := by
  rw [Text.toList_decimal]
  exact plain_minus v (plain_toDigits (by decide) (by decide) v.natAbs)

theorem plain_signedDecimal (v : Int) : Plain (Text.signedDecimal v).toList := by
  unfold Text.signedDecimal
  rw [String.toList_append]
  split
  · exact plain_decimal v
  · exact Plain.cons rfl (plain_decimal v)

/-- with a mark in front, -/
theorem plain_marked (count n : Nat) : Plain (Text.marked count n) := by
  refine Plain.cons rfl (Plain.cons rfl ⟨?_, fun c hIn => ?_⟩)
  · exact List.append_ne_nil_of_right_ne_nil _ (plain_toDigits (by decide) (by decide) n).ne_nil
  · rcases List.mem_append.mp hIn with hZero | hDigit
    · rw [List.eq_of_mem_replicate hZero]
      rfl
    · exact (plain_toDigits (by decide) (by decide) n).all c hDigit

/-- filled with zeros, -/
theorem plain_zeroFilled (width n : Nat) :
    Plain (Text.zeroFilled width "0x" (Text.hexDigits n) n).toList := by
  obtain ⟨count, hText⟩ := Text.toList_zeroFilled width n
  rw [hText]
  exact plain_marked count n

/-- or in hexadecimal. -/
theorem plain_hex (v : Int) : Plain (Text.hex v).toList := by
  rw [Text.toList_hex]
  exact plain_minus v (plain_marked 0 v.natAbs)

/-- So are the names of registers. -/
theorem plain_registerName (r : Nat) : Plain (registerName r).toList := by
  unfold registerName
  rw [String.toList_append]
  exact Plain.cons rfl (plain_decimal r)

/-! Registers and numbers. -/

/-- There are no other registers than these. -/
theorem register_lt {token : Token} {r : Nat} (h : register token = .ok r) : r < 32 := by
  unfold register at h
  dsimp only at h
  split at h
  · rename_i found hFound
    cases h
    obtain ⟨before, after, hSplit, -⟩ := List.lookup_eq_some_iff.mp hFound
    have hAll : ∀ entry ∈ aliases, entry.2 < 32 := by decide
    exact hAll _ (hSplit ▸ List.mem_append_right _ List.mem_cons_self)
  · split at h
    · split at h
      · split at h
        · split at h
          · cases h
            omega
          · cases h
        · cases h
      · cases h
    · cases h

/-- The name of a register is read as its number. -/
theorem register_registerName {r : Nat} (h : r < 32) :
    register (registerName r).toList = .ok r := by
  have hAll : ∀ r : Fin 32, (register (registerName r).toList).toOption = some r.val := by
    decide +kernel
  exact ok_of_toOption (hAll ⟨r, h⟩)

section Numbers

variable {labels : Labels} {token : Token} {v : Int}

/-- What is read as an integer is read as a number. -/
theorem number_of_readInteger (h : Text.readInteger (Text.trim token) = .ok v) :
    number token = .ok v := by
  unfold number
  dsimp only
  rw [h]
  rfl

/-- A number that is no label stands for itself. -/
theorem value_of_readInteger (hOther : labels.lookup (Text.trim token) = none)
    (h : Text.readInteger (Text.trim token) = .ok v) : value labels token = .ok v := by
  unfold value
  dsimp only
  rw [hOther]
  dsimp only
  rw [h]
  rfl

/-- What is no label and is read as an integer is a distance. -/
theorem distance_of_readInteger (hOther : labels.lookup (Text.trim token) = none)
    (h : Text.readInteger (Text.trim token) = .ok v) (pc : Int) :
    distance labels pc token = .ok v := by
  unfold distance
  rw [hOther]
  exact value_of_readInteger hOther h

variable (hPlain : Plain token) (h : Text.readInteger token = .ok v)
include hPlain h

/-- So it is as an operand that is a number, -/
theorem number_ok : number token = .ok v :=
  number_of_readInteger (by rwa [hPlain.trim])

/-- a value, -/
theorem value_ok : value [] token = .ok v :=
  value_of_readInteger rfl (by rwa [hPlain.trim])

/-- or a distance, in a context without labels. -/
theorem distance_ok (pc : Int) : distance [] pc token = .ok v :=
  distance_of_readInteger rfl (by rwa [hPlain.trim]) pc

end Numbers

/-! Memory operands. -/

/-- A memory operand as it is written. -/
def memoryText (v : Int) (r : Nat) : String := Text.decimal v ++ "(" ++ registerName r ++ ")"

/-- An address is written as its offset with its base in brackets. -/
theorem toList_memoryText (v : Int) (r : Nat) :
    (memoryText v r).toList =
      (Text.decimal v).toList ++ '(' :: ((registerName r).toList ++ [')']) := by
  unfold memoryText
  simp only [String.toList_append]
  rw [List.append_assoc, List.append_assoc]
  rfl

theorem plain_memoryText (v : Int) (r : Nat) : Plain (memoryText v r).toList := by
  rw [toList_memoryText]
  exact (plain_decimal v).append (Plain.cons rfl ((plain_registerName r).append
    ⟨nofun, fun c hIn => List.mem_singleton.mp hIn ▸ rfl⟩))

/-- The digits of an offset end at the parenthesis. -/
theorem offsetText_digits {sign : Token} (hSign : sign = [] ∨ sign = ['-']) (n : Nat)
    (tail : Token) :
    offsetText (sign ++ (Nat.toDigits 10 n ++ '(' :: tail)) =
      (sign ++ Nat.toDigits 10 n, '(' :: tail) := by
  have hDigits : ∀ c ∈ Nat.toDigits 10 n, (Text.decimalValue? c).isSome = true := by
    intro c hIn
    obtain ⟨d, hDigit, rfl⟩ := Text.mem_toDigits (by decide) hIn
    rw [Text.decimalValue?_digitChar hDigit]
    rfl
  obtain ⟨d, rest, -, -, hFirst⟩ := Text.toDigits_cons (b := 10) (by decide) n
  have hTaken : (sign ++ (Nat.toDigits 10 n ++ '(' :: tail)).takeWhile (· == '-') = sign := by
    have hNone : (Nat.toDigits 10 n ++ '(' :: tail).takeWhile (· == '-') = [] := by
      rw [hFirst]
      exact List.takeWhile_cons_of_neg (by simp)
    rcases hSign with rfl | rfl
    · exact hNone
    · exact congrArg ('-' :: ·) hNone
  have hShort : sign.take 1 = sign := by
    rcases hSign with rfl | rfl <;> rfl
  have hFront : (Nat.toDigits 10 n ++ '(' :: tail).takeWhile
      (fun c => (Text.decimalValue? c).isSome) = Nat.toDigits 10 n := by
    rw [List.takeWhile_append_of_pos hDigits]
    exact List.append_nil _
  have hRest : (Nat.toDigits 10 n ++ '(' :: tail).dropWhile
      (fun c => (Text.decimalValue? c).isSome) = '(' :: tail := by
    rw [List.dropWhile_append_of_pos hDigits]
    rfl
  have hLonger : (sign ++ Nat.toDigits 10 n).length ≠ sign.length := by
    rw [List.length_append, hFirst, List.length_cons]
    omega
  unfold offsetText
  rw [hTaken, hShort]
  dsimp only
  rw [List.drop_left, hFront, hRest]
  split
  · rename_i x more hBody
    -- behind a leading zero stands a digit or the parenthesis, neither of which is a mark
    have hNoMark : ¬(x = 'x' ∨ x = 'X') := by
      rw [hFirst] at hDigits hBody
      have hSecond := (List.cons.inj hBody).2
      cases rest with
      | nil =>
          rw [← (List.cons.inj hSecond).1]
          decide
      | cons e others =>
          have hValue := hDigits e (List.mem_cons_of_mem _ List.mem_cons_self)
          rw [(List.cons.inj hSecond).1] at hValue
          rintro (rfl | rfl) <;> cases hValue
    simp only [hNoMark, false_and, if_false]
    exact if_neg hLonger
  · exact if_neg hLonger

/-- The offset of an address ends where its bracket begins. -/
theorem offsetText_decimal (v : Int) (tail : Token) :
    offsetText ((Text.decimal v).toList ++ '(' :: tail) =
      ((Text.decimal v).toList, '(' :: tail) := by
  unfold Text.decimal Text.minus
  rw [String.toList_append, String.toList_ofList, List.append_assoc]
  split
  · exact offsetText_digits (.inr rfl) _ tail
  · exact offsetText_digits (.inl rfl) _ tail

/-- The base of an address stands in its brackets. -/
theorem parenthesised?_registerName {r : Nat} (h : r < 32) :
    parenthesised? ('(' :: ((registerName r).toList ++ [')'])) =
      some (registerName r).toList := by
  have hAll : ∀ r : Fin 32, parenthesised? ('(' :: ((registerName r).toList ++ [')'])) =
      some (registerName r).toList := by
    decide +kernel
  exact hAll ⟨r, h⟩

/-- A memory operand is read back as its offset and its register. -/
theorem memory_memoryText {v : Int} {r : Nat} (hOffset : Text.isWritable v = true)
    (hReg : r < 32) : memory (memoryText v r).toList = .ok (v, r) := by
  unfold memory
  rw [(plain_memoryText v r).trim, toList_memoryText, offsetText_decimal]
  dsimp only
  rw [parenthesised?_registerName hReg]
  dsimp only
  rw [if_neg (by simpa using (plain_decimal v).ne_nil),
    number_ok (plain_decimal v) (Text.readInteger_decimal hOffset), register_registerName hReg]
  rfl

end AccelPipe.Assembly

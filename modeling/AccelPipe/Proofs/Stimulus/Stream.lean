import AccelPipe.Proofs.Stimulus.Draws
import AccelPipe.Proofs.Stimulus.Words
import AccelPipe.Stimulus.Stream

/-! Streams whose jumps go forward. Every pattern keeps the lines of a stream in order: a distance is
chosen so that it does not leave the lines that are still wanted, and those do get written. -/
namespace AccelPipe.Stimulus

namespace Line.Onward

variable {last last' place : Nat} {l : Line}

/-- More lines at the end do no harm. -/
theorem mono (h : l.Onward last place) (hMore : last ≤ last') : l.Onward last' place := by
  cases h with
  | constant hReg hLow hHigh => exact .constant hReg hLow hHigh
  | registers hFormat hLegal hRd hA hB => exact .registers hFormat hLegal hRd hA hB
  | sliding hKind hRd => exact .sliding hKind hRd
  | immediate hForm hRd hA hLow hHigh => exact .immediate hForm hRd hA hLow hHigh
  | shift hForm hRd hA hAmount => exact .shift hForm hRd hA hAmount
  | upper hRd hSmall => exact .upper hRd hSmall
  | memory hForm hRd hBase hLow hHigh => exact .memory hForm hRd hBase hLow hHigh
  | store hA hBase hLow hHigh => exact .store hA hBase hLow hHigh
  | two hForm hRd hA => exact .two hForm hRd hA
  | clear hRd => exact .clear hRd
  | branch hFormat hA hB hSome hFew hWithin =>
      exact .branch hFormat hA hB hSome hFew (hWithin.trans hMore)
  | jump hRd hSome hFew hWithin => exact .jump hRd hSome hFew (hWithin.trans hMore)
  | absolute hRd hLater hWithin hSmall => exact .absolute hRd hLater (hWithin.trans hMore) hSmall

end Line.Onward

/-- The lines of a stream go forward, to lines that it has or that are still wanted. -/
structure Stream.Sound (length : Nat) (s : Stream) : Prop where
  count : s.count = s.lines.length
  recent : ∀ r ∈ s.recent, r < 32
  onward : ∀ (i : Nat) (l : Line), s.lines.reverse[i]? = some l →
    l.Onward (headWords + max length s.count) (headWords + i)

/-- A stream begins with no lines, which is sound. -/
theorem Stream.sound_empty (length : Nat) : ({} : Stream).Sound length :=
  ⟨rfl, nofun, nofun⟩

variable {α β : Type} {length count : Nat}

/-- From a sound stream of so many lines on, whatever numbers come out, the stream stays sound, and
the result and the number of lines are such. -/
def Ensured (length count : Nat) (b : Build α) (P : α → Nat → Prop) : Prop :=
  ∀ s : Stream, s.Sound length → s.count = count →
    (b.run s).Ensures fun out => out.2.Sound length ∧ P out.1 out.2.count

/-- The same without a new line. -/
def Reads (length count : Nat) (b : Build α) (P : α → Prop) : Prop :=
  Ensured length count b fun a count' => P a ∧ count' = count

section Rules

variable {b : Build α} {P Q : α → Nat → Prop} {R : β → Nat → Prop} {f : α → Build β}

theorem ensured_pure {a : α} (h : P a count) : Ensured length count (pure a) P := by
  rintro s hSound rfl
  exact .done ⟨hSound, h⟩

/-- What is ensured may be weakened. -/
theorem Ensured.mono (h : Ensured length count b P) (hWeaker : ∀ a n, P a n → Q a n) :
    Ensured length count b Q :=
  fun s hSound hCount => (h s hSound hCount).mono fun _ hOut => ⟨hOut.1, hWeaker _ _ hOut.2⟩

/-- One part of a build after the other. -/
theorem Ensured.bind (h : Ensured length count b P)
    (hNext : ∀ a count', P a count' → Ensured length count' (f a) R) :
    Ensured length count (b >>= f) R :=
  fun s hSound hCount => (h s hSound hCount).bind fun out hOut =>
    hNext out.1 out.2.count hOut.2 out.2 hOut.1 rfl

/-- What is read can be used behind it, in the same line. -/
theorem Reads.bind {p : α → Prop} (h : Reads length count b p)
    (hNext : ∀ a, p a → Ensured length count (f a) R) : Ensured length count (b >>= f) R := by
  refine Ensured.bind h fun a count' hA => ?_
  rw [hA.2]
  exact hNext a hA.1

/-- A draw writes no line. -/
theorem reads_draw {d : Draw α} {p : α → Prop} (h : d.Ensures p) : Reads length count (draw d) p := by
  rintro s hSound rfl
  exact h.bind fun a hA => .done ⟨hSound, hA, rfl⟩

/-- What looks at the stream can rely on the number of its lines. -/
theorem ensured_get {g : Stream → Build β}
    (h : ∀ s : Stream, s.Sound length → s.count = count → Ensured length count (g s) R) :
    Ensured length count (get >>= g) R :=
  fun s hSound hCount => h s hSound hCount s hSound hCount

/-- What stands in a place of a list with one more element. -/
theorem getElem?_concat_cases {xs : List α} {a b : α} {i : Nat} (h : (xs ++ [b])[i]? = some a) :
    (i < xs.length ∧ xs[i]? = some a) ∨ (i = xs.length ∧ a = b) := by
  rw [List.getElem?_append] at h
  split at h
  · exact .inl ⟨‹_›, h⟩
  · rw [List.getElem?_singleton] at h
    split at h
    · exact .inr ⟨by omega, (Option.some.inj h).symm⟩
    · cases h

/-- A line that goes forward keeps the stream sound, which has one line more with it. -/
theorem ensured_emit {name : String} {parts : List Part} {P : Unit → Nat → Prop}
    (hLine : Line.Onward (headWords + max length (count + 1)) (headWords + count) ⟨name, parts⟩)
    (h : P () (count + 1)) : Ensured length count (emit name parts) P := by
  rintro s hSound rfl
  refine .done ⟨⟨congrArg (· + 1) hSound.count, hSound.recent, fun i l hLine' => ?_⟩, h⟩
  change (List.reverse (⟨name, parts⟩ :: s.lines))[i]? = some l at hLine'
  change l.Onward (headWords + max length (s.count + 1)) (headWords + i)
  rw [List.reverse_cons] at hLine'
  rcases getElem?_concat_cases hLine' with ⟨-, hOld⟩ | ⟨hPlace, rfl⟩
  · exact (hSound.onward i l hOld).mono (by omega)
  · rw [List.length_reverse, ← hSound.count] at hPlace
    rwa [hPlace]

end Rules

/-! Operands. -/

/-- A register operand. -/
def IsRegister (p : Part) : Prop := ∃ r < 32, p = .register r

/-- A register that is read is one of the 32. -/
theorem Reads.register {b : Build Part} {f : Part → Build β} {R : β → Nat → Prop}
    (h : Reads length count b IsRegister)
    (hNext : ∀ r < 32, Ensured length count (f (.register r)) R) :
    Ensured length count (b >>= f) R := by
  refine h.bind fun p hP => ?_
  obtain ⟨r, hReg, rfl⟩ := hP
  exact hNext r hReg

theorem ensures_anyRegister : anyRegister.Ensures (· < 32) := by
  refine (Draw.ensures_choice 1 (dataRegisters.drop 1)).mono fun r hIn => ?_
  have hAll : ∀ r ∈ 1 :: dataRegisters.drop 1, r < 32 := by decide
  exact hAll r hIn

theorem reads_register {d : Draw Nat} (h : d.Ensures (· < 32)) :
    Reads length count (do return Part.register (← draw d)) IsRegister :=
  (reads_draw h).bind fun r hReg => ensured_pure ⟨⟨r, hReg, rfl⟩, rfl⟩

/-- Sources are registers, whether they are recent ones or any. -/
theorem reads_source : Reads length count sourceRegister IsRegister := by
  unfold sourceRegister
  refine ensured_get fun s hSound hCount => ?_
  split
  · exact reads_register ensures_anyRegister
  · rename_i r rest hRecent
    refine (reads_draw (Draw.ensures_chance 6 10)).bind fun recent _ => ?_
    split
    · refine reads_register ((Draw.ensures_choice r (rest.take 2)).mono fun r' hIn => ?_)
      refine hSound.recent r' ?_
      rw [hRecent]
      exact List.cons_subset_cons r (List.take_subset 2 rest) hIn
    · exact reads_register ensures_anyRegister

/-- So are targets, whichever the stream chooses. -/
theorem reads_target : Reads length count targetRegister IsRegister := by
  unfold targetRegister
  refine (reads_draw ensures_anyRegister).bind fun r hReg => ?_
  rintro s hSound rfl
  refine .done ⟨⟨hSound.count, fun r' hIn => ?_, hSound.onward⟩, ⟨r, hReg, rfl⟩, rfl⟩
  rcases List.mem_cons.mp (List.mem_of_mem_take hIn) with rfl | hOld
  · exact hReg
  · exact hSound.recent r' hOld

/-- A number that is drawn keeps to its bounds. -/
theorem number_bind {low high : Int} {f : Part → Build β} {R : β → Nat → Prop} (h : low ≤ high)
    (hNext : ∀ n, low ≤ n → n ≤ high → Ensured length count (f (.number n)) R) :
    Ensured length count (number low high >>= f) R := by
  have hNumber : Reads length count (number low high) fun p =>
      ∃ n, low ≤ n ∧ n ≤ high ∧ p = .number n :=
    (reads_draw (Draw.ensures_between h)).bind fun n hRange =>
      ensured_pure ⟨⟨n, hRange.1, hRange.2, rfl⟩, rfl⟩
  refine hNumber.bind fun p hP => ?_
  obtain ⟨n, hLow, hHigh, rfl⟩ := hP
  exact hNext n hLow hHigh

/-- An offset is that of a word of data. -/
theorem offset_bind {f : Part → Build β} {R : β → Nat → Prop}
    (hNext : ∀ n < dataWords, Ensured length count (f (.memory (n : Nat) 20)) R) :
    Ensured length count (offset >>= f) R := by
  have hDraw : (Draw.index dataWords Draw.done).Ensures (· < dataWords) :=
    .index (by decide) fun _ hLess => .done hLess
  have hOffset : Reads length count offset fun p => ∃ n < dataWords, p = .memory (n : Nat) 20 :=
    (reads_draw hDraw).bind fun n hLess => ensured_pure ⟨⟨n, hLess, rfl⟩, rfl⟩
  refine hOffset.bind fun p hP => ?_
  obtain ⟨n, hLess, rfl⟩ := hP
  exact hNext n hLess

/-- The name of a mnemonic, one of some that have something in common. -/
theorem name_bind {first : String} {rest : List String} {f : String → Build β} {R : β → Nat → Prop}
    (p : Mnemonic → Bool)
    (h : ((first :: rest).all fun name => (Mnemonic.ofName? name).any p) = true)
    (hNext : ∀ m : Mnemonic, p m = true → Ensured length count (f m.name) R) :
    Ensured length count (name first rest >>= f) R := by
  refine (reads_draw (Draw.ensures_choice first rest)).bind fun op hOp => ?_
  obtain ⟨m, hFound, hKind⟩ := (Option.any_eq_true _ _).mp (List.all_eq_true.mp h op hOp)
  have hFirst : Mnemonic.all.find? (fun m : Mnemonic => m.name == op) = some m := hFound
  have hName := List.find?_some hFirst
  rw [← eq_of_beq hName]
  exact hNext m hKind

/-! Patterns. -/

/-- A computation that writes one line. -/
def Writes (length count : Nat) (b : Build Unit) : Prop :=
  Ensured length count b fun _ count' => count' = count + 1

/-- A computation that writes one line or two. -/
def Grows (length count : Nat) (b : Build Unit) : Prop :=
  Ensured length count b fun _ count' => count < count' ∧ count' ≤ count + 2

/-- What writes one line lets the stream grow. -/
theorem Writes.grows {b : Build Unit} (h : Writes length count b) : Grows length count b :=
  Ensured.mono h fun _ _ hOne => ⟨by omega, by omega⟩

/-- So do two computations that write one line each. -/
theorem Writes.twice {b b' : Build Unit} (h : Writes length count b)
    (hNext : Writes length (count + 1) b') : Grows length count (b >>= fun _ => b') := by
  refine Ensured.bind h fun _ later hLater => ?_
  rw [hLater]
  exact Ensured.mono hNext fun _ _ hOne => ⟨by omega, by omega⟩

/-- A plain line is one line. -/
theorem writes_emit {name : String} {parts : List Part}
    (hLine : Line.Onward (headWords + max length (count + 1)) (headWords + count) ⟨name, parts⟩) :
    Writes length count (emit name parts) :=
  ensured_emit hLine rfl

/-- One of some operations on two registers. -/
theorem writes_operation {first : String} {rest : List String}
    (h : ((first :: rest).all fun name => (Mnemonic.ofName? name).any fun m =>
      m.format = .r ∧ m ≠ .illegal) = true) :
    Writes length count (do
      let op ← name first rest
      let rd ← targetRegister
      let a ← sourceRegister
      let b ← sourceRegister
      emit op [rd, a, b]) := by
  refine name_bind (fun m => m.format = .r ∧ m ≠ .illegal) h fun m hForm => ?_
  obtain ⟨hFormat, hLegal⟩ := of_decide_eq_true hForm
  refine reads_target.register fun rd hRd => reads_source.register fun a hA =>
    reads_source.register fun b hB => ?_
  exact writes_emit (.registers hFormat hLegal hRd hA hB)

theorem writes_arithmetic : Writes length count arithmetic :=
  writes_operation (by decide +kernel)

theorem writes_immediate : Writes length count immediate := by
  unfold immediate
  refine (reads_draw (Draw.ensures_fraction _)).bind fun n _ => ?_
  split
  · refine reads_target.register fun rd hRd => number_bind (by decide) fun n hLow hHigh => ?_
    obtain ⟨k, rfl⟩ := Int.eq_ofNat_of_zero_le hLow
    exact writes_emit (.upper hRd (by omega))
  · split
    · refine name_bind Mnemonic.shifts (by decide +kernel) fun m hForm => ?_
      refine reads_target.register fun rd hRd => reads_source.register fun a hA =>
        number_bind (by decide) fun n hLow hHigh => ?_
      obtain ⟨k, rfl⟩ := Int.eq_ofNat_of_zero_le hLow
      exact writes_emit (.shift hForm hRd hA (by omega))
    · refine name_bind Mnemonic.takesImmediate (by decide +kernel) fun m hForm => ?_
      refine reads_target.register fun rd hRd => reads_source.register fun a hA =>
        number_bind (by decide) fun n hLow hHigh => ?_
      exact writes_emit (.immediate hForm hRd hA hLow hHigh)

theorem writes_load : Writes length count load := by
  refine reads_target.register fun rd hRd => offset_bind fun n hLess => ?_
  have hSmall : n < 128 := hLess
  exact writes_emit (.memory (m := .lw) rfl hRd (by decide) (by omega) (by omega))

theorem writes_store : Writes length count store := by
  refine reads_source.register fun a hA => offset_bind fun n hLess => ?_
  have hSmall : n < 128 := hLess
  exact writes_emit (.store hA (by decide) (by omega) (by omega))

/-- A jump stays within the lines that are left. -/
theorem skip_bind {limit left : Nat} {f : Int → Build β} {R : β → Nat → Prop} (hLimit : 0 < limit)
    (hLeft : 2 ≤ left)
    (hNext : ∀ steps, 0 < steps → steps ≤ limit + 1 → steps ≤ left →
      Ensured length count (f (4 * steps : Nat)) R) :
    Ensured length count (skip limit left >>= f) R := by
  have hRange : (1 : Int) ≤ (min limit (left - 1) : Nat) := by omega
  have hSkip : Reads length count (skip limit left) fun distance =>
      ∃ steps : Nat, distance = (4 * steps : Nat) ∧ 0 < steps ∧ steps ≤ limit + 1 ∧ steps ≤ left := by
    refine (reads_draw (Draw.ensures_between hRange)).bind fun lines hLines => ensured_pure ⟨?_, rfl⟩
    obtain ⟨k, rfl⟩ := Int.eq_ofNat_of_zero_le (show 0 ≤ lines by omega)
    exact ⟨k + 1, by omega, by omega, by omega, by omega⟩
  refine hSkip.bind fun distance hDistance => ?_
  obtain ⟨steps, rfl, hSome, hFew, hWithin⟩ := hDistance
  exact hNext steps hSome hFew hWithin

/-- A branch goes no further than the lines that are still wanted. -/
theorem writes_branch : Writes length count (branch (length - count)) := by
  unfold branch
  split
  · exact writes_arithmetic
  · refine skip_bind (by decide) (by omega) fun steps hSome hFew hWithin => ?_
    refine name_bind (fun m => m.format = .b) (by decide +kernel) fun m hForm => ?_
    refine reads_source.register fun a hA => reads_source.register fun b hB => ?_
    exact writes_emit (.branch (of_decide_eq_true hForm) hA hB hSome hFew (by omega))

/-- A jump to a distance. -/
theorem writes_near (hLeft : 2 ≤ length - count) :
    Writes length count (do
      let distance ← skip 2 (length - count)
      let rd ← targetRegister
      emit "jal" [rd, .number distance]) := by
  refine skip_bind (by decide) hLeft fun steps hSome hFew hWithin => ?_
  exact reads_target.register fun rd hRd => writes_emit (.jump hRd hSome (by omega) (by omega))

/-- A jump skips no more lines than are still wanted, and writes those in between. -/
theorem grows_jump : Grows length count (jump (length - count)) := by
  unfold jump
  split
  · exact writes_arithmetic.grows
  · rename_i hLeft
    refine ensured_get fun s _ hIs => ?_
    dsimp only
    rw [hIs]
    split
    · rename_i hSmall
      refine (reads_draw (Draw.ensures_chance 4 10)).bind fun absolute _ => ?_
      split
      · have hLine : Line.Onward (headWords + max length (count + 1)) (headWords + count)
            ⟨"jalr", [.register 25, .memory (4 * (headWords + count + 2) : Nat) 0]⟩ :=
          .absolute (by decide) (by omega) (by omega) (by omega)
        exact (writes_emit hLine).twice writes_arithmetic
      · exact (writes_near (by omega)).grows
    · rw [pure_bind, if_neg Bool.false_ne_true]
      exact (writes_near (by omega)).grows

theorem writes_multiply : Writes length count multiply :=
  writes_operation (by decide +kernel)

theorem writes_rectify : Writes length count rectify := by
  unfold rectify
  refine (reads_draw (Draw.ensures_chance 3 10)).bind fun bounded _ => ?_
  split
  · refine reads_target.register fun rd hRd => reads_source.register fun a hA =>
      number_bind (by decide) fun n hLow hHigh => ?_
    exact writes_emit (.immediate (m := .reluB) rfl hRd hA (by omega) hHigh)
  · refine reads_target.register fun rd hRd => reads_source.register fun a hA => ?_
    exact writes_emit (.two (m := .relu) rfl hRd hA)

/-- A convolution takes one line or two. -/
theorem grows_convolve : Grows length count convolve := by
  have hChoice : (Draw.choice (0 : Int) [1, 1, 2]).Ensures fun n => 0 ≤ n ∧ n ≤ 2 := by
    refine (Draw.ensures_choice 0 [1, 1, 2]).mono fun n hIn => ?_
    have hAll : ∀ n ∈ [(0 : Int), 1, 1, 2], 0 ≤ n ∧ n ≤ 2 := by decide
    exact hAll n hIn
  refine (reads_draw hChoice).bind fun distance hRange => ?_
  refine (writes_emit (.immediate (m := .addi) rfl (by decide) (by decide) (by omega)
    (by omega))).twice ?_
  exact reads_target.register fun rd hRd =>
    writes_emit (.registers (m := .conv2d) rfl nofun hRd (by decide) (by decide))

theorem writes_filter : Writes length count filter := by
  unfold filter
  refine (reads_draw (Draw.ensures_chance 1 10)).bind fun clears _ => ?_
  split
  · exact reads_target.register fun rd hRd => writes_emit (.clear hRd)
  · refine reads_target.register fun rd hRd => reads_source.register fun a hA => ?_
    exact writes_emit (.two (m := .fir) rfl hRd hA)

theorem writes_pool : Writes length count pool := by
  refine name_bind (fun m => m.kind = .pool) (by decide +kernel) fun m hForm => ?_
  have hKind : m.kind = .pool := of_decide_eq_true hForm
  have hFormat := Mnemonic.format_of_pool hKind
  refine (reads_draw (Draw.ensures_chance 4 10)).bind fun slides _ => ?_
  split
  · exact reads_target.register fun rd hRd => writes_emit (.sliding hKind hRd)
  · exact reads_target.register fun rd hRd =>
      writes_emit (.registers hFormat.1 hFormat.2 hRd (by decide) (by decide))

theorem writes_coefficients : Writes length count coefficients := by
  unfold coefficients
  refine (reads_draw (Draw.ensures_chance 5 10)).bind fun square _ => ?_
  dsimp only
  split
  · rw [pure_bind]
    exact reads_target.register fun rd hRd =>
      writes_emit (.memory (m := .conv2dLd) rfl hRd (by decide) (by decide) (by decide))
  · rw [pure_bind]
    exact reads_target.register fun rd hRd =>
      writes_emit (.memory (m := .firLd) rfl hRd (by decide) (by decide) (by decide))

/-- Every pattern writes lines that go forward, one or two of them. -/
theorem Pattern.grows (p : Pattern) : Grows length count (p.emit (length - count)) := by
  cases p with
  | arithmetic => exact writes_arithmetic.grows
  | immediate => exact writes_immediate.grows
  | load => exact writes_load.grows
  | store => exact writes_store.grows
  | branch => exact writes_branch.grows
  | jump => exact grows_jump
  | multiply => exact writes_multiply.grows
  | rectify => exact writes_rectify.grows
  | convolve => exact grows_convolve
  | filter => exact writes_filter.grows
  | pool => exact writes_pool.grows
  | coefficients => exact writes_coefficients.grows

/-! Whole streams. -/

/-- The pointer is reset in one line, unless it is not needed. -/
theorem ensured_resetPointer :
    Ensured length count resetPointer fun _ count' => count ≤ count' ∧ count' ≤ count + 1 := by
  unfold resetPointer
  refine ensured_get fun s _ _ => ?_
  split
  · have hLine : Line.Onward (headWords + max length (count + 1)) (headWords + count)
        ⟨"li", [.register 20, .number dataBase]⟩ :=
      .constant (by decide) (by decide) (by decide)
    refine Ensured.bind (writes_emit hLine) fun _ later hLater => ?_
    rintro s hSound rfl
    have hRange : count ≤ s.count ∧ s.count ≤ count + 1 := by omega
    exact .done ⟨⟨hSound.count, hSound.recent, hSound.onward⟩, hRange⟩
  · exact ensured_pure ⟨Nat.le_refl count, Nat.le_succ count⟩

/-- With fuel for the lines that are still wanted, all of them are written, and two more at most. -/
theorem ensured_patterns {fuel : Nat} (hFuel : length ≤ count + fuel) (hCount : count ≤ length + 2) :
    Ensured length count (patterns length fuel) fun _ count' =>
      length ≤ count' ∧ count' ≤ length + 2 := by
  induction fuel generalizing count with
  | zero => exact ensured_pure ⟨hFuel, hCount⟩
  | succ fuel ih =>
      unfold patterns
      refine ensured_get fun s _ hIs => ?_
      rw [hIs]
      split
      · exact ensured_pure ⟨‹_›, hCount⟩
      · refine (reads_draw (Draw.ensures_weighted _ weights)).bind fun p _ => ?_
        refine Ensured.bind p.grows fun _ later hLater => ?_
        refine Ensured.bind ensured_resetPointer fun _ last hLast => ?_
        exact ih (by omega) (by omega)

end AccelPipe.Stimulus

import AccelPipe.Proofs.Bits
import AccelPipe.Proofs.Config.Valid
import AccelPipe.Proofs.Memory.Mapping

/-! The banked memory is a flat one: an address has one word, whatever banks, ports and prefetch
buffer do. The buffer only ever holds copies that are up to date. -/
namespace AccelPipe.Memory

/-- A memory whose banks are even, whose words are signed 32-bit numbers, and whose prefetch buffer
agrees with its banks. -/
structure Sound (m : Memory) : Prop extends m.Even where
  range : ∀ addr, IsWord (m.peek addr)
  buffered : ∀ (a : Nat) (v : Int), m.buffer.lookup a = some v → a < m.size ∧ m.peek a = v

/-- Two memories with the same words in the same places. -/
structure SameWords (m m' : Memory) : Prop where
  size : m'.size = m.size
  mapping : m'.mapping = m.mapping
  interleave : m'.interleave = m.interleave
  banks : m'.banks.size = m.banks.size
  words : ∀ i : Nat, (m'.banks[i]?).map Bank.words = (m.banks[i]?).map Bank.words

namespace SameWords

variable {m m' m'' : Memory}

theorem refl (m : Memory) : SameWords m m := ⟨rfl, rfl, rfl, rfl, fun _ => rfl⟩

theorem trans (h : SameWords m m') (h' : SameWords m' m'') : SameWords m m'' where
  size := h'.size.trans h.size
  mapping := h'.mapping.trans h.mapping
  interleave := h'.interleave.trans h.interleave
  banks := h'.banks.trans h.banks
  words := fun i => (h'.words i).trans (h.words i)

theorem wrap (h : SameWords m m') (addr : Int) : m'.wrap addr = m.wrap addr := by
  unfold Memory.wrap
  rw [h.size]

theorem locate (h : SameWords m m') (addr : Int) : m'.locate addr = m.locate addr := by
  unfold Memory.locate
  rw [h.wrap, h.banks, h.mapping, h.interleave]

/-- Memories with the same words are read alike. -/
theorem peek (h : SameWords m m') : m'.peek = m.peek := by
  funext addr
  unfold Memory.peek
  rw [h.locate]
  have hWords := h.words (m.locate addr).1
  dsimp only
  cases hNew : m'.banks[(m.locate addr).1]? with
  | none =>
      cases hOld : m.banks[(m.locate addr).1]? with
      | none => rfl
      | some b => simp [hNew, hOld] at hWords
  | some b' =>
      cases hOld : m.banks[(m.locate addr).1]? with
      | none => simp [hNew, hOld] at hWords
      | some b =>
          simp only [hNew, hOld, Option.map_some, Option.some.injEq] at hWords
          simp only [Bank.word, hWords]

/-- Memories with the same words have banks of the same size. -/
theorem even (h : SameWords m m') (hEven : m.Even) : m'.Even where
  size := h.size ▸ hEven.size
  banks := h.banks ▸ hEven.banks
  interleave := h.interleave ▸ hEven.interleave
  unit := by
    rw [h.banks, h.interleave, h.size]
    exact hEven.unit
  words := by
    intro i b' hNew
    have hWords := h.words i
    rw [hNew] at hWords
    obtain ⟨b, hOld, hSame⟩ := Option.map_eq_some_iff.mp hWords.symm
    rw [← hSame, h.size, h.banks]
    exact hEven.words i b hOld

/-- The buffer may stay as it is while the banks keep their words. -/
theorem sound (h : SameWords m m') (hBuffer : m'.buffer = m.buffer) (hSound : m.Sound) :
    m'.Sound where
  toEven := h.even hSound.toEven
  range := by
    rw [h.peek]
    exact hSound.range
  buffered := by
    rw [h.peek, hBuffer, h.size]
    exact hSound.buffered

end SameWords

variable {m : Memory}

/-- A change to one bank leaves the others alone. -/
theorem getElem?_onBank (m : Memory) (i : Nat) (f : Bank → Bank) (j : Nat) :
    (m.onBank i f).banks[j]? = if i = j then m.banks[j]?.map f else m.banks[j]? :=
  Array.getElem?_modify

/-- A bank after one of them has been changed is that one or as it was. -/
theorem bank_of_onBank {i j : Nat} {f : Bank → Bank} {b : Bank}
    (h : (m.onBank i f).banks[j]? = some b) :
    ∃ old, m.banks[j]? = some old ∧ b = if i = j then f old else old := by
  rw [getElem?_onBank] at h
  split at h
  · rename_i hHere
    obtain ⟨old, hOld, rfl⟩ := Option.map_eq_some_iff.mp h
    exact ⟨old, hOld, (if_pos hHere).symm⟩
  · rename_i hOther
    exact ⟨b, h, (if_neg hOther).symm⟩

/-- Whatever changes a bank but not its words. -/
theorem sameWords_onBank (i : Nat) {f : Bank → Bank} (hWords : ∀ b, (f b).words = b.words) :
    SameWords m (m.onBank i f) where
  size := rfl
  mapping := rfl
  interleave := rfl
  banks := Array.size_modify
  words := by
    intro j
    rw [getElem?_onBank]
    split
    · cases m.banks[j]? with
      | none => rfl
      | some b => exact congrArg some (hWords b)
    · rfl

/-- An address stands for the word that it is reduced to. -/
theorem peek_eq_of_wrap_eq {a b : Int} (h : m.wrap a = m.wrap b) : m.peek a = m.peek b := by
  unfold peek
  rw [locate_eq_of_wrap_eq h]

theorem peek_wrap (h : 0 < m.size) (addr : Int) : m.peek (m.wrap addr : Nat) = m.peek addr :=
  peek_eq_of_wrap_eq (wrap_wrap h addr)

/-! Writing a word changes that word alone. -/

/-- A write keeps the banks at their size. -/
theorem poke_even (h : m.Even) (addr value : Int) : (m.poke addr value).Even where
  size := h.size
  banks := by
    unfold poke onBank
    rw [Array.size_modify]
    exact h.banks
  interleave := h.interleave
  unit := by
    unfold poke onBank
    rw [Array.size_modify]
    exact h.unit
  words := by
    intro i b hBank
    obtain ⟨old, hOld, rfl⟩ := bank_of_onBank (i := (m.locate addr).1) hBank
    unfold poke onBank
    rw [Array.size_modify, ← h.words i old hOld]
    split
    · exact Array.size_setIfInBounds
    · rfl

theorem locate_poke (addr value at' : Int) : (m.poke addr value).locate at' = m.locate at' := by
  unfold poke onBank locate wrap
  dsimp only
  rw [Array.size_modify]

/-- A word is read from the bank that its address is located in. -/
theorem peek_of_bank {addr : Int} {b : Bank} (h : m.banks[(m.locate addr).1]? = some b) :
    m.peek addr = b.word (m.locate addr).2 := by
  unfold peek
  dsimp only
  rw [h]

/-- A write changes the word at its address, however that is written, and no other. -/
theorem peek_poke (h : m.Even) (addr value at' : Int) :
    (m.poke addr value).peek at' = if m.wrap at' = m.wrap addr then s32 value else m.peek at' := by
  have hCell := locate_eq_iff h (a := at') (b := addr)
  have hBank := locate_bank_lt h at'
  have hOffset := locate_offset_lt h at'
  obtain ⟨b, hGet⟩ : ∃ b, m.banks[(m.locate at').1]? = some b :=
    ⟨_, Array.getElem?_eq_getElem hBank⟩
  have hSize := h.words _ b hGet
  have hBefore : m.peek at' = b.word (m.locate at').2 := peek_of_bank hGet
  have hAfter : (m.poke addr value).banks[((m.poke addr value).locate at').1]? =
      some (if (m.locate addr).1 = (m.locate at').1 then b.setWord (m.locate addr).2 value
        else b) := by
    rw [locate_poke]
    change (m.banks.modify (m.locate addr).1 _)[(m.locate at').1]? = _
    rw [Array.getElem?_modify, hGet]
    split <;> rfl
  rw [peek_of_bank hAfter, locate_poke, hBefore]
  by_cases hSame : m.wrap at' = m.wrap addr
  · have hLocate := hCell.mpr hSame
    rw [if_pos hSame, ← hLocate, if_pos rfl]
    simp only [Bank.word, Bank.setWord, Array.getD_eq_getD_getElem?]
    rw [Array.getElem?_setIfInBounds_self_of_lt (by omega)]
    rfl
  · have hLocate : m.locate at' ≠ m.locate addr := fun hEq => hSame (hCell.mp hEq)
    rw [if_neg hSame]
    by_cases hFirst : (m.locate addr).1 = (m.locate at').1
    · have hSecond : (m.locate addr).2 ≠ (m.locate at').2 := by
        intro hEq
        exact hLocate (Prod.ext hFirst.symm hEq.symm)
      rw [if_pos hFirst]
      simp only [Bank.word, Bank.setWord, Array.getD_eq_getD_getElem?]
      rw [Array.getElem?_setIfInBounds_ne hSecond]
    · rw [if_neg hFirst]

theorem poke_size (addr value : Int) : (m.poke addr value).size = m.size := rfl

/-- A list with one value replaced wherever its key stands. -/
theorem lookup_replace (l : List (Nat × Int)) (a : Nat) (w : Int) (k : Nat) :
    (l.map fun (j, v) => (j, if j = a then w else v)).lookup k =
      (l.lookup k).map fun v => if k = a then w else v := by
  induction l with
  | nil => rfl
  | cons entry rest ih =>
      obtain ⟨j, v⟩ := entry
      simp only [List.map_cons, List.lookup_cons]
      by_cases hKey : k = j
      · subst hKey
        simp
      · simp only [beq_eq_false_iff_ne.mpr hKey]
        exact ih

/-- A write keeps the memory sound: a prefetched copy of the word is replaced. -/
theorem Sound.poke (h : m.Sound) (addr value : Int) : (m.poke addr value).Sound where
  toEven := poke_even h.toEven addr value
  range := by
    intro at'
    rw [peek_poke h.toEven]
    split
    · exact isWord_s32 value
    · exact h.range at'
  buffered := by
    intro a v hCopy
    have hLookup : ((m.buffer.lookup a).map fun v => if a = m.wrap addr then s32 value else v) =
        some v := by
      rw [← lookup_replace]
      exact hCopy
    obtain ⟨old, hOld, hNew⟩ := Option.map_eq_some_iff.mp hLookup
    obtain ⟨hKey, hPeek⟩ := h.buffered a old hOld
    refine ⟨hKey, ?_⟩
    rw [peek_poke h.toEven, wrap_natCast hKey, hPeek]
    exact hNew

/-! Loading data writes word after word. -/

/-- So does a load of many words. -/
theorem Sound.load {m : Memory} (h : m.Sound) (addr : Int) (words : List Int) :
    (m.load addr words).Sound := by
  induction words generalizing m addr with
  | nil => exact h
  | cons w ws ih => exact ih (h.poke addr w) (addr + 1)

theorem load_size (m : Memory) (addr : Int) (words : List Int) :
    (m.load addr words).size = m.size := by
  induction words generalizing m addr with
  | nil => rfl
  | cons w ws ih => exact ih (m.poke addr w) (addr + 1)

/-! Starting an access and reserving ports only count. -/

theorem reserve_words (b : Bank) (cycle ticks : Int) :
    (b.reserve cycle ticks).2.words = b.words := by
  unfold Bank.reserve
  split <;> rfl

/-- Beginning an access changes no words. -/
theorem sameWords_begin (m : Memory) (addr cycle : Int) (isLoad : Bool) :
    SameWords m (m.begin addr cycle isLoad).2 := by
  unfold begin
  dsimp only
  split
  · exact ⟨rfl, rfl, rfl, rfl, fun _ => rfl⟩
  · cases hBank : m.banks[m.bankOf addr]? with
    | none => exact SameWords.refl m
    | some b =>
        refine ⟨rfl, rfl, rfl, Array.size_modify, ?_⟩
        intro i
        rw [getElem?_onBank]
        split
        · rename_i hHere
          rw [← hHere, hBank]
          exact congrArg some (reserve_words b cycle b.latency)
        · rfl

/-- Beginning an access does not touch the prefetched words. -/
theorem begin_buffer (m : Memory) (addr cycle : Int) (isLoad : Bool) :
    (m.begin addr cycle isLoad).2.buffer = m.buffer := by
  unfold begin
  dsimp only
  split
  · rfl
  · cases m.banks[m.bankOf addr]? with
    | none => rfl
    | some b => rfl

theorem Sound.begin (h : m.Sound) (addr cycle : Int) (isLoad : Bool) :
    (m.begin addr cycle isLoad).2.Sound :=
  (sameWords_begin m addr cycle isLoad).sound (begin_buffer m addr cycle isLoad) h

/-- Reserving banks changes no words. -/
theorem sameWords_reserveEach (m : Memory) (cycle ticks : Int) (banks : List Nat) :
    SameWords m (reserveEach cycle ticks m banks) := by
  induction banks generalizing m with
  | nil => exact SameWords.refl m
  | cons i rest ih =>
      refine (sameWords_onBank i ?_).trans (ih _)
      intro b
      exact reserve_words b cycle _

theorem reserveEach_buffer (m : Memory) (cycle ticks : Int) (banks : List Nat) :
    (reserveEach cycle ticks m banks).buffer = m.buffer := by
  induction banks generalizing m with
  | nil => rfl
  | cons i rest ih => exact ih _

theorem sameWords_refuse (m : Memory) (banks : List Nat) :
    SameWords m (banks.foldl (fun m i => m.onBank i Bank.refuse) m) := by
  induction banks generalizing m with
  | nil => exact SameWords.refl m
  | cons i rest ih =>
      have hHead : SameWords m (m.onBank i Bank.refuse) := sameWords_onBank i fun _ => rfl
      exact hHead.trans (ih _)

theorem refuse_buffer (m : Memory) (banks : List Nat) :
    (banks.foldl (fun m i => m.onBank i Bank.refuse) m).buffer = m.buffer := by
  induction banks generalizing m with
  | nil => rfl
  | cons i rest ih => exact ih _

/-- A burst changes no words, whether it is granted or not. -/
theorem sameWords_reserveBurst (m : Memory) (addrs : List Int) (cycle ticks : Int) :
    SameWords m (m.reserveBurst addrs cycle ticks).2 := by
  unfold reserveBurst
  dsimp only
  split
  · exact sameWords_reserveEach m cycle ticks _
  · exact sameWords_refuse m _

/-- A burst does not touch the prefetched words. -/
theorem reserveBurst_buffer (m : Memory) (addrs : List Int) (cycle ticks : Int) :
    (m.reserveBurst addrs cycle ticks).2.buffer = m.buffer := by
  unfold reserveBurst
  dsimp only
  split
  · exact reserveEach_buffer m cycle ticks _
  · exact refuse_buffer m _

theorem Sound.reserveBurst (h : m.Sound) (addrs : List Int) (cycle ticks : Int) :
    (m.reserveBurst addrs cycle ticks).2.Sound :=
  (sameWords_reserveBurst m addrs cycle ticks).sound (m.reserveBurst_buffer addrs cycle ticks) h

/-! A load ends with the word at its address, and its prefetch copies words as they are. -/

/-- A load yields the word in memory, whether it comes from there or was prefetched. -/
theorem completeLoad_value (h : m.Sound) (addr : Int) : (m.completeLoad addr).1 = m.peek addr := by
  rw [← peek_wrap h.size addr]
  unfold completeLoad
  dsimp only
  cases hCopy : m.buffer.lookup (m.wrap addr) with
  | some v => exact (h.buffered _ v hCopy).2.symm
  | none =>
      dsimp only
      split <;> rfl

/-- Whatever a load prefetches, it does so into the buffer. -/
theorem completeLoad_rest (m : Memory) (addr : Int) :
    (m.completeLoad addr).2 =
      { m with
        buffer := (m.completeLoad addr).2.buffer
        prefetchFills := (m.completeLoad addr).2.prefetchFills } := by
  unfold completeLoad
  dsimp only
  split
  · rfl
  · split <;> rfl

/-- A load may prefetch words, but changes none. -/
theorem sameWords_completeLoad (m : Memory) (addr : Int) :
    SameWords m (m.completeLoad addr).2 := by
  rw [completeLoad_rest]
  exact ⟨rfl, rfl, rfl, rfl, fun _ => rfl⟩

/-- What a list of words and their addresses says about an address. -/
theorem lookup_peek {l : List Nat} {place : Nat → Nat} {a : Nat} {v : Int}
    (h : (l.map fun k => (place k, m.peek (place k : Nat))).lookup a = some v) :
    (∃ k, place k = a) ∧ m.peek a = v := by
  induction l with
  | nil => cases h
  | cons k rest ih =>
      simp only [List.map_cons, List.lookup_cons] at h
      by_cases hKey : a = place k
      · subst hKey
        simp only [beq_self_eq_true, Option.some.injEq] at h
        exact ⟨⟨k, rfl⟩, h⟩
      · simp only [beq_eq_false_iff_ne.mpr hKey] at h
        exact ih h

/-- What a load prefetches are words in memory. -/
theorem Sound.completeLoad (h : m.Sound) (addr : Int) : (m.completeLoad addr).2.Sound := by
  have hSame := sameWords_completeLoad m addr
  refine ⟨hSame.even h.toEven, ?_, ?_⟩
  · rw [hSame.peek]
    exact h.range
  · rw [hSame.peek, hSame.size]
    unfold Memory.completeLoad
    dsimp only
    cases hCopy : m.buffer.lookup (m.wrap addr) with
    | some v => exact h.buffered
    | none =>
        dsimp only
        split
        · exact h.buffered
        · intro a v hFound
          obtain ⟨⟨k, rfl⟩, hPeek⟩ := lookup_peek hFound
          exact ⟨wrap_lt h.size _, hPeek⟩

/-- All banks of a fresh memory are alike. -/
theorem bank_of_fresh {c : Config} {i : Nat} {b : Bank} (h : (fresh c).banks[i]? = some b) :
    b = Bank.fresh (c.memWords / c.bankCount) c.ports c.memLatency := by
  simp only [fresh, Array.getElem?_replicate] at h
  split at h
  · exact (Option.some.inj h).symm
  · cases h

/-- A fresh memory is zero. -/
theorem peek_fresh (c : Config) (addr : Int) : (fresh c).peek addr = 0 := by
  unfold peek
  dsimp only
  cases hBank : (fresh c).banks[((fresh c).locate addr).1]? with
  | none => rfl
  | some b =>
      obtain rfl := bank_of_fresh hBank
      simp only [Bank.word, Bank.fresh, Array.getD_eq_getD_getElem?, Array.getElem?_replicate]
      split <;> rfl

/-- The memory at the start of a run. -/
theorem sound_fresh {c : Config} (hValid : c.Valid) : (fresh c).Sound := by
  have hBanks := hValid.bankCount
  have hInterleave := hValid.interleave
  refine ⟨⟨hValid.memWords, ?_, hInterleave, ?_, ?_⟩, ?_, ?_⟩
  · simp only [fresh, Array.size_replicate]
    omega
  · simp only [fresh, Array.size_replicate]
    exact hValid.evenMemory
  · intro i b hBank
    rw [bank_of_fresh hBank]
    simp only [fresh, Bank.fresh, Array.size_replicate]
  · intro addr
    rw [peek_fresh]
    exact isWord_zero
  · intro a v hCopy
    cases hCopy

/-- All words of a memory can be kept in 64 bits. -/
theorem snapshot_word (h : m.Sound) {v : Int} (hWord : v ∈ m.snapshot) : IsWord v := by
  obtain ⟨a, -, rfl⟩ := List.mem_map.mp hWord
  exact h.range a

end AccelPipe.Memory

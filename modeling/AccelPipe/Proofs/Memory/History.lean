import AccelPipe.Proofs.Memory.Load

/-! The words of the memory as its past has left them. Whatever has been asked of it, in whatever
order, a place holds what was last written to an address that wraps around to it. Accesses, bursts
and prefetches write nothing, and no copy is ever older than the word that it copies. -/
namespace AccelPipe

namespace Memory

/-- What can be asked of a memory. -/
inductive Call where
  | load (addr : Int) (words : List Int)
  | poke (addr value : Int)
  | begin (addr cycle : Int) (isLoad : Bool)
  | burst (addrs : List Int) (cycle ticks : Int)
  | completeLoad (addr : Int)
  | completeStore (addr value : Int)

/-- The memory after a call. -/
def call (m : Memory) : Call → Memory
  | .load addr words => m.load addr words
  | .poke addr value => m.poke addr value
  | .begin addr cycle isLoad => (m.begin addr cycle isLoad).2
  | .burst addrs cycle ticks => (m.reserveBurst addrs cycle ticks).2
  | .completeLoad addr => (m.completeLoad addr).2
  | .completeStore addr value => m.completeStore addr value

/-- The memory after calls, one after the other. -/
def callAll (m : Memory) (calls : List Call) : Memory := calls.foldl call m

/-- Words with their addresses, which follow each other. -/
def consecutive (addr : Int) : List Int → List (Int × Int)
  | [] => []
  | w :: ws => (addr, w) :: consecutive (addr + 1) ws

/-- What a call writes, and where, in order. -/
def Call.writes : Call → List (Int × Int)
  | .load addr words => consecutive addr words
  | .poke addr value | .completeStore addr value => [(addr, value)]
  | .begin .. | .burst .. | .completeLoad _ => []

end Memory

/-- The word that was last written to an address, or to one that is the same modulo the size. -/
def lastWritten (size : Nat) (writes : List (Int × Int)) (addr : Int) : Int :=
  match writes.reverse.find? fun write => write.1 % (size : Int) == addr % (size : Int) with
  | some write => s32 write.2
  | none => 0

namespace Memory

/-- A write is seen at the addresses that wrap around to its own, and nowhere else. -/
theorem lastWritten_append {size : Nat} (hSize : 0 < size) (writes : List (Int × Int))
    (addr value : Int) :
    lastWritten size (writes ++ [(addr, value)]) =
      pokeWord size (lastWritten size writes) addr value := by
  funext place
  have hLeft := Int.emod_nonneg place (show (size : Int) ≠ 0 by omega)
  have hRight := Int.emod_nonneg addr (show (size : Int) ≠ 0 by omega)
  unfold lastWritten pokeWord
  by_cases hSame : addr % (size : Int) = place % (size : Int)
  · simp [hSame]
  · have hApart : (place % (size : Int)).toNat ≠ (addr % (size : Int)).toNat := by omega
    simp [hSame, hApart]

/-- A load fills the buffer anew, unless it has found its word there or nothing is prefetched. -/
theorem completeLoad_buffer (m : Memory) (addr : Int) :
    (m.completeLoad addr).2.buffer =
      if (m.buffer.lookup (m.wrap addr)).isSome || m.prefetchStride = 0 then m.buffer
      else m.window (m.wrap addr) := by
  unfold completeLoad
  dsimp only
  cases m.buffer.lookup (m.wrap addr) with
  | some v => rfl
  | none => by_cases hStride : m.prefetchStride = 0 <;> simp [hStride]

/-- A memory with a past: every word is what was last written, and every copy is up to date. -/
structure Remembers (m : Memory) (writes : List (Int × Int)) : Prop extends m.Sound where
  written : m.peek = lastWritten m.size writes
  copies : ∀ copy ∈ m.buffer, copy.1 < m.size ∧ m.peek copy.1 = copy.2

namespace Remembers

variable {m m' : Memory} {writes : List (Int × Int)}

theorem fresh {c : Config} (hValid : c.Valid) : (Memory.fresh c).Remembers [] where
  toSound := sound_fresh hValid
  written := funext (peek_fresh c)
  copies := by simp [Memory.fresh]

/-- Nothing is forgotten while the words and the buffer stay. -/
theorem same (h : m.Remembers writes) (hSame : SameWords m m') (hBuffer : m'.buffer = m.buffer) :
    m'.Remembers writes where
  toSound := hSame.sound hBuffer h.toSound
  written := by rw [hSame.peek, hSame.size, h.written]
  copies := by
    rw [hBuffer, hSame.peek, hSame.size]
    exact h.copies

theorem poke (h : m.Remembers writes) (addr value : Int) :
    (m.poke addr value).Remembers (writes ++ [(addr, value)]) where
  toSound := h.toSound.poke addr value
  written := by
    rw [poke_size, lastWritten_append h.size, ← h.written]
    exact funext (peek_poke h.toEven addr value)
  copies := by
    intro copy hCopy
    obtain ⟨old, hOld, rfl⟩ := List.mem_map.mp hCopy
    obtain ⟨hKey, hPeek⟩ := h.copies old hOld
    refine ⟨hKey, ?_⟩
    rw [peek_poke h.toEven, wrap_natCast hKey, hPeek]

theorem load (h : m.Remembers writes) (addr : Int) (words : List Int) :
    (m.load addr words).Remembers (writes ++ consecutive addr words) := by
  induction words generalizing m writes addr with
  | nil => simpa [Memory.load, consecutive] using h
  | cons w ws ih => simpa [Memory.load, consecutive] using ih (h.poke addr w) (addr + 1)

theorem reserveBurst (h : m.Remembers writes) (addrs : List Int) (cycle ticks : Int) :
    (m.reserveBurst addrs cycle ticks).2.Remembers writes :=
  h.same (sameWords_reserveBurst m addrs cycle ticks) (m.reserveBurst_buffer addrs cycle ticks)

/-- A prefetch copies the words as they are. The window may come around to the word just loaded, or
to a word that it has copied already. -/
theorem completeLoad (h : m.Remembers writes) (addr : Int) :
    (m.completeLoad addr).2.Remembers writes := by
  have hSame := sameWords_completeLoad m addr
  refine ⟨h.toSound.completeLoad addr, ?_, ?_⟩
  · rw [hSame.peek, hSame.size, h.written]
  · rw [hSame.peek, hSame.size, completeLoad_buffer]
    split
    · exact h.copies
    · intro copy hWindow
      obtain ⟨k, -, rfl⟩ := List.mem_map.mp hWindow
      dsimp only
      exact ⟨wrap_lt h.size _, rfl⟩

/-- One call, by its kind. -/
theorem call (h : m.Remembers writes) (request : Call) :
    (m.call request).Remembers (writes ++ request.writes) := by
  cases request with
  | load addr words => exact h.load addr words
  | poke addr value => exact h.poke addr value
  | begin addr cycle isLoad =>
      simpa [Memory.call, Call.writes] using
        h.same (sameWords_begin m addr cycle isLoad) (begin_buffer m addr cycle isLoad)
  | burst addrs cycle ticks =>
      simpa [Memory.call, Call.writes] using h.reserveBurst addrs cycle ticks
  | completeLoad addr => simpa [Memory.call, Call.writes] using h.completeLoad addr
  | completeStore addr value => exact h.poke addr value

theorem callAll (h : m.Remembers writes) (calls : List Call) :
    (m.callAll calls).Remembers (writes ++ calls.flatMap Call.writes) := by
  induction calls generalizing m writes with
  | nil => simpa [Memory.callAll] using h
  | cons request rest ih => simpa [Memory.callAll] using ih (h.call request)

end Remembers

theorem call_size (m : Memory) (request : Call) : (m.call request).size = m.size := by
  cases request with
  | load addr words => exact load_size m addr words
  | poke addr value => rfl
  | begin addr cycle isLoad => exact (sameWords_begin m addr cycle isLoad).size
  | burst addrs cycle ticks => exact (sameWords_reserveBurst m addrs cycle ticks).size
  | completeLoad addr => exact (sameWords_completeLoad m addr).size
  | completeStore addr value => rfl

theorem callAll_size (m : Memory) (calls : List Call) : (m.callAll calls).size = m.size := by
  induction calls generalizing m with
  | nil => rfl
  | cons request rest ih => exact (ih (m.call request)).trans (m.call_size request)

/-- Where an address is found among all words. -/
theorem snapshot_wrap {m : Memory} (h : 0 < m.size) (addr : Int) :
    m.snapshot[m.wrap addr]? = some (m.peek addr) := by
  have hLess := wrap_lt h addr
  simp [snapshot, hLess, peek_wrap h]

/-- The banks, their ports and the prefetch buffer are not seen in the words. After any calls to
the memory of a valid configuration, an address reads as what was last written to it, by whichever
way it is read. Every copy in the buffer is the word at its address. -/
theorem callAll_reads_lastWritten {c : Config} (hValid : c.Valid) (calls : List Call) (addr : Int) :
    let m := (fresh c).callAll calls
    let word := lastWritten c.memWords (calls.flatMap Call.writes)
    m.peek addr = word addr ∧
      (∀ addrs, m.readBlock addrs = addrs.map word) ∧
      m.snapshot[(addr % c.memWords).toNat]? = some (word addr) ∧
      (m.completeLoad addr).1 = word addr ∧
      ∀ copy ∈ m.buffer, copy.1 < c.memWords ∧ copy.2 = word copy.1 := by
  intro m word
  have hSize : m.size = c.memWords := callAll_size (fresh c) calls
  have hPast : m.Remembers (calls.flatMap Call.writes) := (Remembers.fresh hValid).callAll calls
  have hWords : m.peek = word := by
    rw [hPast.written, hSize]
  have hWrap : m.wrap addr = (addr % c.memWords).toNat := by rw [wrap, hSize]
  refine ⟨congrFun hWords addr, ?_, ?_, ?_, ?_⟩
  · intro addrs
    rw [readBlock, hWords]
  · rw [← hWrap, snapshot_wrap hPast.size, hWords]
  · rw [completeLoad_value hPast.toSound, hWords]
  · intro copy hCopy
    obtain ⟨hKey, hPeek⟩ := hPast.copies copy hCopy
    rw [← hSize, ← hWords, hPeek]
    exact ⟨hKey, rfl⟩

/-- A load copies the two words behind it, the first of which is then written under an address
beyond the memory: the copy that the next load finds is the new word. -/
theorem completeLoad_after_wrapping_poke :
    Config.slow.Valid ∧
      let m := (fresh Config.slow).callAll
        [.load (-3) [5, 6], .begin (-3) 0 true, .completeLoad (-3), .poke 14 0x100000009]
      (m.completeLoad 6).1 = 9 ∧ m.buffer = [(6, 9), (7, 0)] := by
  refine ⟨Config.valid_slow, ?_, by decide⟩
  exact (callAll_reads_lastWritten Config.valid_slow _ 6).2.2.2.1.trans (by decide)

end Memory

end AccelPipe

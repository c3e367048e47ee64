import AccelPipe.Proofs.Memory.History
import Mathlib.Data.Set.Function

/-! The cells of the banks and the addresses of the memory are in one-to-one correspondence: no two
addresses share a cell, and no cell is without an address. Nothing that the memory is asked for
moves an address to another cell. -/
namespace AccelPipe.Memory

/-- The address that is kept at an offset of a bank. -/
def addressOf (m : Memory) (bank offset : Nat) : Nat :=
  match m.mapping with
  | .modulo => offset * m.banks.size + bank
  | .stride =>
    (offset / m.interleave * m.banks.size + bank) * m.interleave + offset % m.interleave

/-- The addresses of a number of words. -/
def addresses (size : Nat) : Set Int := { addr | 0 ≤ addr ∧ addr < size }

/-- The cells of a number of banks, each with its share of the words. -/
def cells (banks share : Nat) : Set (Nat × Nat) := { cell | cell.1 < banks ∧ cell.2 < share }

variable {m : Memory}

/-! A place within whole units of one width. -/
section Units

variable {unit units width place : Nat}

theorem unit_lt (hUnit : unit < units) (hPlace : place < width) :
    unit * width + place < units * width :=
  calc unit * width + place
      < (unit + 1) * width := by
        rw [Nat.succ_mul]
        omega
    _ ≤ units * width := Nat.mul_le_mul_right _ hUnit

theorem unit_div (hPlace : place < width) : (unit * width + place) / width = unit :=
  Nat.div_eq_of_lt_le (Nat.le_add_right _ _) (unit_lt (Nat.lt_succ_self unit) hPlace)

end Units

theorem addressOf_lt (h : m.Even) {bank offset : Nat} (hBank : bank < m.banks.size)
    (hOffset : offset < m.size / m.banks.size) : m.addressOf bank offset < m.size := by
  obtain ⟨share, hShare⟩ := h.unit
  unfold addressOf
  cases m.mapping with
  | modulo =>
      calc offset * m.banks.size + bank
          < m.size / m.banks.size * m.banks.size := unit_lt hOffset hBank
        _ ≤ m.size := Nat.div_mul_le_self _ _
  | stride =>
      have hSize : m.size = share * m.banks.size * m.interleave := by
        rw [hShare, Nat.mul_comm _ share, Nat.mul_assoc]
      have hRow : offset / m.interleave < share := by
        apply Nat.div_lt_of_lt_mul
        rwa [hShare, Nat.mul_assoc, Nat.mul_div_cancel_left _ h.banks] at hOffset
      rw [hSize]
      exact unit_lt (unit_lt hRow hBank) (Nat.mod_lt _ h.interleave)

/-- An address is found in the cell that it is kept in. -/
theorem locate_addressOf (h : m.Even) {bank offset : Nat} (hBank : bank < m.banks.size)
    (hOffset : offset < m.size / m.banks.size) :
    m.locate (m.addressOf bank offset) = (bank, offset) := by
  unfold locate
  rw [wrap_natCast (addressOf_lt h hBank hOffset)]
  unfold addressOf
  cases m.mapping with
  | modulo =>
      dsimp only
      rw [Nat.mul_add_mod_of_lt hBank, unit_div hBank]
  | stride =>
      have hPlace := Nat.mod_lt offset h.interleave
      dsimp only
      rw [unit_div hPlace, Nat.mul_add_mod_of_lt hPlace, Nat.mul_add_mod_of_lt hBank,
        unit_div hBank, Nat.div_add_mod']

theorem locate_emod (m : Memory) (addr : Int) : m.locate (addr % m.size) = m.locate addr := by
  apply locate_eq_of_wrap_eq
  unfold wrap
  rw [Int.emod_emod]

/-- Each address of the memory has a cell of its own, and each cell has an address. -/
theorem locate_bijOn (h : m.Even) :
    Set.BijOn m.locate (addresses m.size) (cells m.banks.size (m.size / m.banks.size)) := by
  refine ⟨?_, ?_, ?_⟩
  · intro addr _
    exact ⟨locate_bank_lt h addr, locate_offset_lt h addr⟩
  · rintro a ⟨hLow, hHigh⟩ b ⟨hLow', hHigh'⟩ hSame
    have hWrap := (locate_eq_iff h).mp hSame
    unfold wrap at hWrap
    rw [Int.emod_eq_of_lt hLow hHigh, Int.emod_eq_of_lt hLow' hHigh'] at hWrap
    omega
  · rintro ⟨bank, offset⟩ ⟨hBank, hOffset⟩
    have hLess : m.addressOf bank offset < m.size := addressOf_lt h hBank hOffset
    exact ⟨m.addressOf bank offset, ⟨by omega, by omega⟩, locate_addressOf h hBank hOffset⟩

/-- Two memories of one geometry. -/
structure SameShape (m m' : Memory) : Prop where
  size : m'.size = m.size
  mapping : m'.mapping = m.mapping
  interleave : m'.interleave = m.interleave
  banks : m'.banks.size = m.banks.size

namespace SameShape

variable {m m' m'' : Memory}

theorem refl (m : Memory) : SameShape m m := ⟨rfl, rfl, rfl, rfl⟩

theorem trans (h : SameShape m m') (h' : SameShape m' m'') : SameShape m m'' where
  size := h'.size.trans h.size
  mapping := h'.mapping.trans h.mapping
  interleave := h'.interleave.trans h.interleave
  banks := h'.banks.trans h.banks

theorem of_words (h : SameWords m m') : SameShape m m' :=
  ⟨h.size, h.mapping, h.interleave, h.banks⟩

theorem poke (m : Memory) (addr value : Int) : SameShape m (m.poke addr value) :=
  ⟨rfl, rfl, rfl, Array.size_modify⟩

theorem load (m : Memory) (addr : Int) (words : List Int) :
    SameShape m (m.load addr words) := by
  induction words generalizing m addr with
  | nil => exact refl m
  | cons w ws ih => exact (poke m addr w).trans (ih (m.poke addr w) (addr + 1))

/-- Whatever is asked of a memory, its geometry stays. -/
theorem call (m : Memory) (request : Call) : SameShape m (m.call request) := by
  cases request with
  | load addr words => exact load m addr words
  | poke addr value => exact poke m addr value
  | begin addr cycle isLoad => exact of_words (sameWords_begin m addr cycle isLoad)
  | burst addrs cycle ticks => exact of_words (sameWords_reserveBurst m addrs cycle ticks)
  | completeLoad addr => exact of_words (sameWords_completeLoad m addr)
  | completeStore addr value => exact poke m addr value

theorem callAll (m : Memory) (calls : List Call) : SameShape m (m.callAll calls) := by
  induction calls generalizing m with
  | nil => exact refl m
  | cons request rest ih => exact (call m request).trans (ih (m.call request))

/-- The geometry alone decides where an address is kept. -/
theorem locate (h : SameShape m m') : m'.locate = m.locate := by
  funext addr
  unfold Memory.locate Memory.wrap
  rw [h.size, h.banks, h.mapping, h.interleave]

end SameShape

/-- In the memory of a valid configuration, whatever has been asked of it, the addresses from zero
up to the number of words are mapped one-to-one onto the cells. The banks are those of the
configuration, each with its share of the words, so that each of their words is kept for one of
those addresses. Any other address stands for its remainder. The mapping never changes. -/
theorem locate_one_to_one {c : Config} (hValid : c.Valid) (calls : List Call) :
    let m := (fresh c).callAll calls
    Set.BijOn m.locate (addresses c.memWords) (cells c.bankCount (c.memWords / c.bankCount)) ∧
      (∀ addr, m.locate addr = m.locate (addr % c.memWords)) ∧
      m.locate = (fresh c).locate ∧
      m.banks.size = c.bankCount ∧
      ∀ (i : Nat) (b : Bank), m.banks[i]? = some b → b.words.size = c.memWords / c.bankCount := by
  intro m
  have hShape : SameShape (fresh c) m := SameShape.callAll (fresh c) calls
  have hEven : m.Even := ((Remembers.fresh hValid).callAll calls).toEven
  have hSize : m.size = c.memWords := hShape.size
  have hBanks : m.banks.size = c.bankCount := hShape.banks.trans Array.size_replicate
  refine ⟨?_, ?_, hShape.locate, hBanks, ?_⟩
  · simpa only [hSize, hBanks] using locate_bijOn hEven
  · intro addr
    rw [← hSize, locate_emod]
  · intro i b hBank
    rw [hEven.words i b hBank, hSize, hBanks]

/-- Four banks of two words, and blocks of two addresses that go around them. An address below zero
shares its cell with the address that it stands for. -/
theorem locate_one_to_one_of_slow :
    Config.slow.Valid ∧
      let m := (fresh Config.slow).callAll [.load 6 [5, 6, 7], .poke (-13) 8]
      Set.BijOn m.locate (addresses 8) (cells 4 2) ∧
        (List.range 8).map (fun addr => m.locate addr) =
          [(0, 0), (0, 1), (1, 0), (1, 1), (2, 0), (2, 1), (3, 0), (3, 1)] ∧
        m.locate (-13) = (1, 1) := by
  obtain ⟨hBij, -⟩ := locate_one_to_one Config.valid_slow [.load 6 [5, 6, 7], .poke (-13) 8]
  exact ⟨Config.valid_slow, hBij, by decide, by decide⟩

end AccelPipe.Memory

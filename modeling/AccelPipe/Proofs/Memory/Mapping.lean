import AccelPipe.Memory.Basic

/-! The mapping of addresses to banks is one-to-one: two addresses share a bank and an offset only
if they are the same address of the memory. -/
namespace AccelPipe.Memory

/-- The banks divide the memory evenly, and each of them holds its share. -/
structure Even (m : Memory) : Prop where
  size : 0 < m.size
  banks : 0 < m.banks.size
  interleave : 0 < m.interleave
  unit : m.banks.size * m.interleave ∣ m.size
  words : ∀ (i : Nat) (b : Bank), m.banks[i]? = some b → b.words.size = m.size / m.banks.size

variable {m : Memory}

theorem wrap_lt (h : 0 < m.size) (addr : Int) : m.wrap addr < m.size := by
  unfold wrap
  have hLow := Int.emod_nonneg addr (show (m.size : Int) ≠ 0 by omega)
  have hHigh := Int.emod_lt_of_pos addr (show (0 : Int) < m.size by omega)
  omega

theorem wrap_natCast {a : Nat} (h : a < m.size) : m.wrap a = a := by
  unfold wrap
  rw [Int.emod_eq_of_lt (by omega) (by omega)]
  rfl

theorem wrap_wrap (h : 0 < m.size) (addr : Int) : m.wrap (m.wrap addr : Nat) = m.wrap addr :=
  wrap_natCast (wrap_lt h addr)

/-- Bank and offset depend on the wrapped address alone. -/
theorem locate_eq_of_wrap_eq {a b : Int} (h : m.wrap a = m.wrap b) : m.locate a = m.locate b := by
  unfold locate
  rw [h]

theorem locate_bank_lt (h : m.Even) (addr : Int) : (m.locate addr).1 < m.banks.size := by
  unfold locate
  cases m.mapping with
  | modulo => exact Nat.mod_lt _ h.banks
  | stride => exact Nat.mod_lt _ h.banks

theorem locate_offset_lt (h : m.Even) (addr : Int) :
    (m.locate addr).2 < m.size / m.banks.size := by
  obtain ⟨share, hShare⟩ := h.unit
  have hWrap := wrap_lt h.size addr
  have hQuotient : m.size / m.banks.size = m.interleave * share := by
    rw [hShare, Nat.mul_assoc, Nat.mul_div_cancel_left _ h.banks]
  rw [hQuotient]
  unfold locate
  cases m.mapping with
  | modulo =>
      apply Nat.div_lt_of_lt_mul
      rw [← Nat.mul_assoc, ← hShare]
      exact hWrap
  | stride =>
      have hBlock : m.wrap addr / m.interleave / m.banks.size < share := by
        apply Nat.div_lt_of_lt_mul
        apply Nat.div_lt_of_lt_mul
        rw [← Nat.mul_assoc, Nat.mul_comm m.interleave, ← hShare]
        exact hWrap
      have hInner := Nat.mod_lt (m.wrap addr) h.interleave
      calc m.wrap addr / m.interleave / m.banks.size * m.interleave + m.wrap addr % m.interleave
          < (m.wrap addr / m.interleave / m.banks.size + 1) * m.interleave := by
            rw [Nat.succ_mul]
            omega
        _ ≤ share * m.interleave := Nat.mul_le_mul_right _ hBlock
        _ = m.interleave * share := Nat.mul_comm _ _

theorem wrap_eq_of_locate_eq (h : m.Even) {a b : Int} (hSame : m.locate a = m.locate b) :
    m.wrap a = m.wrap b := by
  have hBanks := h.banks
  unfold locate at hSame
  cases hMapping : m.mapping with
  | modulo =>
      simp only [hMapping, Prod.mk.injEq] at hSame
      rw [← Nat.div_add_mod (m.wrap a) m.banks.size, ← Nat.div_add_mod (m.wrap b) m.banks.size,
        hSame.1, hSame.2]
  | stride =>
      simp only [hMapping, Prod.mk.injEq] at hSame
      obtain ⟨hBank, hOffset⟩ := hSame
      have hInner : m.wrap a % m.interleave = m.wrap b % m.interleave := by
        simpa [Nat.mul_add_mod_self_right] using congrArg (· % m.interleave) hOffset
      have hOuter : m.wrap a / m.interleave / m.banks.size =
          m.wrap b / m.interleave / m.banks.size := by
        rw [hInner] at hOffset
        exact Nat.eq_of_mul_eq_mul_right h.interleave (Nat.add_right_cancel hOffset)
      have hBlock : m.wrap a / m.interleave = m.wrap b / m.interleave := by
        rw [← Nat.div_add_mod (m.wrap a / m.interleave) m.banks.size,
          ← Nat.div_add_mod (m.wrap b / m.interleave) m.banks.size, hBank, hOuter]
      rw [← Nat.div_add_mod (m.wrap a) m.interleave, ← Nat.div_add_mod (m.wrap b) m.interleave,
        hBlock, hInner]

/-- Two addresses meet in one cell of a bank exactly if they wrap to the same address. -/
theorem locate_eq_iff (h : m.Even) {a b : Int} : m.locate a = m.locate b ↔ m.wrap a = m.wrap b :=
  ⟨wrap_eq_of_locate_eq h, locate_eq_of_wrap_eq⟩

end AccelPipe.Memory

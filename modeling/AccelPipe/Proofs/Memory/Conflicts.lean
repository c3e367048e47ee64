import AccelPipe.Proofs.Memory.Load
import Mathlib.Algebra.GroupWithZero.Nat

/-! What the memory counts. Every refused access and every bank that blocks a burst is a conflict,
and nothing else that the pipeline does changes the number of conflicts. -/
namespace AccelPipe

/-- Changing one bank changes a sum over all of them by what changes in it. -/
theorem sum_map_modify {α : Type} (g : α → Nat) (f : α → α) (l : List α) (i : Nat) :
    ((l.modify i f).map g).sum + (l[i]?.elim 0 g) = (l.map g).sum + (l[i]?.elim 0 (g ∘ f)) := by
  induction l generalizing i with
  | nil => simp
  | cons a rest ih =>
      cases i with
      | zero => simp; omega
      | succ i =>
          have hRest := ih i
          simp only [List.modify_succ_cons, List.map_cons, List.sum_cons, List.getElem?_cons_succ]
          omega

namespace Memory

variable {m : Memory}

/-- The conflicts of a memory are those of its banks. -/
theorem conflicts_eq_sum (m : Memory) : m.conflicts = (m.banks.toList.map Bank.conflicts).sum := by
  unfold conflicts
  rw [List.sum_eq_foldr, List.foldr_map]

/-- What one bank counts is added to the sum. -/
theorem conflicts_onBank (m : Memory) (i : Nat) (f : Bank → Bank) :
    (m.onBank i f).conflicts + (m.banks[i]?.elim 0 Bank.conflicts) =
      m.conflicts + (m.banks[i]?.elim 0 (Bank.conflicts ∘ f)) := by
  have hSum := sum_map_modify Bank.conflicts f m.banks.toList i
  rw [conflicts_eq_sum, conflicts_eq_sum]
  unfold onBank
  rw [Array.toList_modify]
  simpa using hSum

/-- A bank that counts no fewer leaves the sum no smaller. -/
theorem conflicts_le_onBank (m : Memory) (i : Nat) {f : Bank → Bank}
    (h : ∀ b, b.conflicts ≤ (f b).conflicts) : m.conflicts ≤ (m.onBank i f).conflicts := by
  have hSum := m.conflicts_onBank i f
  cases hBank : m.banks[i]? with
  | none =>
      rw [hBank] at hSum
      exact Nat.le_of_eq hSum.symm
  | some b =>
      have hMore := h b
      rw [hBank, Option.elim_some, Option.elim_some, Function.comp_apply] at hSum
      omega

theorem conflicts_lt_onBank {i : Nat} {f : Bank → Bank} {b : Bank} (hBank : m.banks[i]? = some b)
    (h : b.conflicts < (f b).conflicts) : m.conflicts < (m.onBank i f).conflicts := by
  have hSum := m.conflicts_onBank i f
  rw [hBank, Option.elim_some, Option.elim_some, Function.comp_apply] at hSum
  omega

/-- A reservation forgets no conflict. -/
theorem reserve_conflicts (b : Bank) (cycle ticks : Int) :
    b.conflicts ≤ (b.reserve cycle ticks).2.conflicts := by
  unfold Bank.reserve
  split
  · exact Nat.le_succ _
  · exact Nat.le_refl _

/-- A write is no conflict. -/
theorem conflicts_poke (m : Memory) (addr value : Int) :
    (m.poke addr value).conflicts = m.conflicts := by
  have hSum := m.conflicts_onBank (m.locate addr).1 (·.setWord (m.locate addr).2 value)
  change (m.onBank (m.locate addr).1 (·.setWord (m.locate addr).2 value)).conflicts = _
  cases hBank : m.banks[(m.locate addr).1]? with
  | none =>
      rw [hBank] at hSum
      exact hSum
  | some b =>
      rw [hBank] at hSum
      exact Nat.add_right_cancel hSum

/-! Loading and storing. -/

/-- Nor is the end of a load. -/
theorem conflicts_completeLoad (m : Memory) (addr : Int) :
    (m.completeLoad addr).2.conflicts = m.conflicts := by
  rw [completeLoad_rest]
  rfl

theorem prefetchHits_completeLoad (m : Memory) (addr : Int) :
    (m.completeLoad addr).2.prefetchHits = m.prefetchHits := by
  rw [completeLoad_rest]

theorem prefetchHits_load (m : Memory) (addr : Int) (words : List Int) :
    (m.load addr words).prefetchHits = m.prefetchHits := by
  induction words generalizing m addr with
  | nil => rfl
  | cons w rest ih => exact ih (m.poke addr w) (addr + 1)

/-- Loading data before a run hits no prefetched word. -/
theorem prefetchHits_loadAll (m : Memory) (data : List (Int × List Int)) :
    (m.loadAll data).prefetchHits = m.prefetchHits := by
  induction data generalizing m with
  | nil => rfl
  | cons d rest ih => exact (ih (m.load d.1 d.2)).trans (m.prefetchHits_load d.1 d.2)

/-! Starting an access. -/

/-- An access finds its word in the prefetch buffer, or asks its bank. -/
theorem begin_cases (m : Memory) (addr cycle : Int) (isLoad : Bool) :
    m.begin addr cycle isLoad = (some 1, { m with prefetchHits := m.prefetchHits + 1 }) ∨
      (m.begin addr cycle isLoad).2.prefetchHits = m.prefetchHits ∧
        m.conflicts ≤ (m.begin addr cycle isLoad).2.conflicts := by
  unfold begin
  dsimp only
  split
  · exact .inl rfl
  · right
    split
    · exact ⟨rfl, Nat.le_refl _⟩
    · rename_i b hBank
      have hSum := m.conflicts_onBank (m.bankOf addr) fun _ => (b.reserve cycle b.latency).2
      have hMore := reserve_conflicts b cycle b.latency
      rw [hBank, Option.elim_some, Option.elim_some, Function.comp_apply] at hSum
      refine ⟨rfl, ?_⟩
      dsimp only
      omega

/-- A refused access is a conflict. -/
theorem begin_conflict (h : m.Even) {addr cycle : Int} {isLoad : Bool} {m' : Memory}
    (hBegin : m.begin addr cycle isLoad = (none, m')) :
    m'.prefetchHits = m.prefetchHits ∧ m.conflicts < m'.conflicts := by
  have hPlace := locate_bank_lt h addr
  unfold begin at hBegin
  dsimp only at hBegin
  split at hBegin
  · cases hBegin
  · split at hBegin
    · rename_i hNone
      exact absurd hPlace (Nat.not_lt.mpr (Array.getElem?_eq_none_iff.mp hNone))
    · rename_i b hBank
      obtain ⟨hTicks, rfl⟩ := Prod.mk.inj hBegin
      refine ⟨rfl, conflicts_lt_onBank hBank ?_⟩
      unfold Bank.reserve at hTicks ⊢
      split
      · exact Nat.lt_succ_self _
      · rename_i hPort
        rw [hPort] at hTicks
        cases hTicks

/-! Bursts. -/

/-- Reserving banks forgets no conflict and hits no prefetched word. -/
theorem conflicts_le_reserveEach (m : Memory) (cycle ticks : Int) (banks : List Nat) :
    m.conflicts ≤ (reserveEach cycle ticks m banks).conflicts ∧
      (reserveEach cycle ticks m banks).prefetchHits = m.prefetchHits := by
  induction banks generalizing m with
  | nil => exact ⟨Nat.le_refl _, rfl⟩
  | cons i rest ih =>
      have hFirst := m.conflicts_le_onBank i (f := fun b => (b.reserve cycle (max ticks b.latency)).2)
        fun b => reserve_conflicts b cycle _
      obtain ⟨hRest, hHits⟩ := ih (m.onBank i fun b => (b.reserve cycle (max ticks b.latency)).2)
      exact ⟨Nat.le_trans hFirst hRest, hHits⟩

/-- Refusing does not either. -/
theorem conflicts_le_refuseAll (m : Memory) (banks : List Nat) :
    m.conflicts ≤ (banks.foldl (fun m i => m.onBank i Bank.refuse) m).conflicts ∧
      (banks.foldl (fun m i => m.onBank i Bank.refuse) m).prefetchHits = m.prefetchHits := by
  induction banks generalizing m with
  | nil => exact ⟨Nat.le_refl _, rfl⟩
  | cons i rest ih =>
      obtain ⟨hRest, hHits⟩ := ih (m.onBank i Bank.refuse)
      exact ⟨Nat.le_trans (m.conflicts_le_onBank i fun b => Nat.le_succ _) hRest, hHits⟩

/-- So a burst forgets none and hits none. -/
theorem reserveBurst_counts (m : Memory) (addrs : List Int) (cycle ticks : Int) :
    m.conflicts ≤ (m.reserveBurst addrs cycle ticks).2.conflicts ∧
      (m.reserveBurst addrs cycle ticks).2.prefetchHits = m.prefetchHits := by
  unfold reserveBurst
  dsimp only
  split
  · exact m.conflicts_le_reserveEach cycle ticks _
  · exact m.conflicts_le_refuseAll _

/-- A blocked burst is a conflict. -/
theorem reserveBurst_conflict {addrs : List Int} {cycle ticks : Int}
    (h : (m.reserveBurst addrs cycle ticks).1 ≠ []) :
    m.conflicts < (m.reserveBurst addrs cycle ticks).2.conflicts := by
  unfold reserveBurst at h ⊢
  dsimp only at h ⊢
  by_cases hFree : ((m.touched addrs).filter (m.bankBusy cycle)).isEmpty = true
  · rw [if_pos hFree] at h
    exact absurd rfl h
  · rw [if_neg hFree]
    obtain ⟨i, rest, hBlocked⟩ := List.exists_cons_of_ne_nil (mt List.isEmpty_iff.mpr hFree)
    have hMem : i ∈ (m.touched addrs).filter (m.bankBusy cycle) := by simp [hBlocked]
    have hPlace : i < m.banks.size :=
      List.mem_range.mp (List.mem_filter.mp (List.mem_filter.mp hMem).1).1
    rw [hBlocked, List.foldl_cons]
    exact Nat.lt_of_lt_of_le
      (conflicts_lt_onBank (Array.getElem?_eq_getElem hPlace) (Nat.lt_succ_self _))
      (conflicts_le_refuseAll _ rest).1

end Memory

end AccelPipe

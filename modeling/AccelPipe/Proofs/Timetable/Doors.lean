import AccelPipe.Proofs.Memory.History
import AccelPipe.Proofs.Timetable.Basic

/-! The memory of a run, as far as time is concerned: where addresses lie, until when the ports of
every bank are taken, and which addresses have been prefetched. -/
namespace AccelPipe

namespace Bank

/-- A bank has a free port at a cycle if one has become free by then. -/
theorem freePort_isSome_iff {b : Bank} (h : b.busyUntil ≠ []) (cycle : Nat) :
    (b.freePort cycle).isSome = true ↔ opening b.busyUntil ≤ cycle := by
  rw [opening_le_iff h]
  unfold freePort
  rw [List.findIdx?_isSome, List.any_eq_true]
  simp only [decide_eq_true_eq]

/-- Reserving a bank takes one of its ports, if one is free. -/
theorem reserve_ports (b : Bank) (cycle ticks : Int) :
    (b.reserve cycle ticks).2.busyUntil = takePort cycle ticks b.busyUntil ∧
      (b.reserve cycle ticks).2.latency = b.latency ∧
      (b.reserve cycle ticks).1 = (b.freePort cycle).isSome := by
  unfold reserve takePort
  cases hPort : b.freePort cycle with
  | none =>
      unfold freePort at hPort
      rw [hPort]
      exact ⟨rfl, rfl, rfl⟩
  | some port =>
      unfold freePort at hPort
      rw [hPort]
      exact ⟨rfl, rfl, rfl⟩

end Bank

namespace Memory

/-- A memory of a configuration, with these ports and these addresses in its prefetch buffer. -/
structure Shows (m : Memory) (c : Config) (ports : Nat → List Int) (buffer : List Nat) : Prop where
  size : m.size = c.memWords
  mapping : m.mapping = c.mapping
  interleave : m.interleave = c.interleave
  count : m.banks.size = c.bankCount
  stride : m.prefetchStride = c.prefetchStride
  window : m.prefetchWindow = c.prefetchWindow
  latency : ∀ (i : Nat) (b : Bank), m.banks[i]? = some b → b.latency = c.memLatency
  ports : ∀ (i : Nat) (b : Bank), m.banks[i]? = some b → b.busyUntil = ports i
  buffer : m.buffer.map (·.1) = buffer

namespace Shows

variable {m m' : Memory} {c : Config} {ports : Nat → List Int} {buffer : List Nat}

/-- All ports of a fresh memory are free. -/
theorem fresh (c : Config) :
    (Memory.fresh c).Shows c (fun _ => List.replicate c.ports 0) [] where
  size := rfl
  mapping := rfl
  interleave := rfl
  count := Array.size_replicate
  stride := rfl
  window := rfl
  latency := fun i b hBank => by
    obtain rfl := Memory.bank_of_fresh hBank
    rfl
  ports := fun i b hBank => by
    obtain rfl := Memory.bank_of_fresh hBank
    rfl
  buffer := rfl

/-! Places. -/

/-- A memory that shows its ports has the places of a fresh one. -/
theorem wrap (h : m.Shows c ports buffer) (addr : Int) :
    m.wrap addr = (Memory.fresh c).wrap addr := by
  unfold Memory.wrap
  rw [h.size]
  rfl

theorem locate (h : m.Shows c ports buffer) (addr : Int) :
    m.locate addr = (Memory.fresh c).locate addr := by
  have hCount : (Memory.fresh c).banks.size = c.bankCount := Array.size_replicate
  unfold Memory.locate
  rw [h.wrap, h.mapping, h.interleave, h.count, hCount]
  rfl

theorem bankOf (h : m.Shows c ports buffer) (addr : Int) :
    m.bankOf addr = (Memory.fresh c).bankOf addr := by
  unfold Memory.bankOf
  rw [h.locate]

/-- A burst touches the same banks in it. -/
theorem touched (h : m.Shows c ports buffer) (addrs : List Int) :
    m.touched addrs = (Memory.fresh c).touched addrs := by
  have hCount : (Memory.fresh c).banks.size = c.bankCount := Array.size_replicate
  have hBanks : m.bankOf = (Memory.fresh c).bankOf := funext h.bankOf
  unfold Memory.touched
  rw [hBanks, h.count, hCount]

/-- It prefetches the same addresses. -/
theorem windowed (h : m.Shows c ports buffer) (addr : Nat) :
    (m.window addr).map (·.1) = ((Memory.fresh c).window addr).map (·.1) := by
  unfold Memory.window
  simp only [List.map_map, Function.comp_def, h.wrap, h.size, h.stride, h.window]
  rfl

/-- What has been prefetched is in its buffer. -/
theorem buffered (h : m.Shows c ports buffer) (addr : Nat) :
    (m.buffer.lookup addr).isSome = buffer.contains addr := by
  rw [← h.buffer]
  induction m.buffer with
  | nil => rfl
  | cons copy rest ih =>
      obtain ⟨a, v⟩ := copy
      rw [List.lookup_cons, List.map_cons, List.contains_cons]
      cases hSame : addr == a with
      | true => rfl
      | false => exact ih

/-! What has no time does not change what a memory shows. -/

/-- A change to the ports of one bank shows there only. -/
theorem onBank (h : m.Shows c ports buffer) (i : Nat) {f : Bank → Bank} (ports' : List Int)
    (hBank : ∀ b, b.latency = c.memLatency → b.busyUntil = ports i →
      (f b).latency = c.memLatency ∧ (f b).busyUntil = ports') :
    (m.onBank i f).Shows c (fun j => if j = i then ports' else ports j) buffer where
  size := h.size
  mapping := h.mapping
  interleave := h.interleave
  count := Array.size_modify.trans h.count
  stride := h.stride
  window := h.window
  latency := by
    intro j b hHere
    obtain ⟨old, hOld, rfl⟩ := Memory.bank_of_onBank hHere
    split
    · rename_i hSame
      subst hSame
      exact (hBank old (h.latency i old hOld) (h.ports i old hOld)).1
    · exact h.latency j old hOld
  ports := by
    intro j b hHere
    obtain ⟨old, hOld, rfl⟩ := Memory.bank_of_onBank hHere
    by_cases hSame : j = i
    · subst hSame
      rw [if_pos rfl, if_pos rfl]
      exact (hBank old (h.latency j old hOld) (h.ports j old hOld)).2
    · rw [if_neg (Ne.symm hSame), if_neg hSame]
      exact h.ports j old hOld
  buffer := h.buffer

theorem congr (h : m.Shows c ports buffer) {ports' : Nat → List Int}
    (hPorts : ∀ i, ports' i = ports i) : m.Shows c ports' buffer := by
  obtain rfl : ports' = ports := funext hPorts
  exact h

/-- What leaves the ports of a bank alone does not show. -/
theorem onBank_same (h : m.Shows c ports buffer) (i : Nat) {f : Bank → Bank}
    (hLatency : ∀ b, (f b).latency = b.latency) (hPorts : ∀ b, (f b).busyUntil = b.busyUntil) :
    (m.onBank i f).Shows c ports buffer := by
  refine (h.onBank i (ports i) fun b hIs hBusy =>
    ⟨(hLatency b).trans hIs, (hPorts b).trans hBusy⟩).congr fun j => ?_
  split
  · rename_i hHere
    rw [hHere]
  · rfl

/-- Only banks and buffer matter, and the buffer for its addresses alone. -/
theorem rebuffer (h : m.Shows c ports buffer)
    (hRest : m' = { m with
      buffer := m'.buffer, prefetchHits := m'.prefetchHits, prefetchFills := m'.prefetchFills }) :
    m'.Shows c ports (m'.buffer.map (·.1)) where
  size := by rw [hRest]; exact h.size
  mapping := by rw [hRest]; exact h.mapping
  interleave := by rw [hRest]; exact h.interleave
  count := by rw [hRest]; exact h.count
  stride := by rw [hRest]; exact h.stride
  window := by rw [hRest]; exact h.window
  latency := by rw [hRest]; exact h.latency
  ports := by rw [hRest]; exact h.ports
  buffer := rfl

/-- Writes do not show. -/
theorem poke (h : m.Shows c ports buffer) (addr value : Int) :
    (m.poke addr value).Shows c ports buffer := by
  have hBanks := h.onBank_same (m.locate addr).1 (f := (·.setWord (m.locate addr).2 value))
    (fun _ => rfl) (fun _ => rfl)
  have hSame : (m.poke addr value).buffer.map (·.1) = buffer := by
    rw [← h.buffer]
    unfold Memory.poke
    rw [List.map_map]
    rfl
  rw [← hSame]
  exact hBanks.rebuffer rfl

theorem load (h : m.Shows c ports buffer) (addr : Int) (words : List Int) :
    (m.load addr words).Shows c ports buffer := by
  induction words generalizing m addr with
  | nil => exact h
  | cons w ws ih => exact ih (h.poke addr w) (addr + 1)

/-- Nor do loads of many words. -/
theorem loadAll (h : m.Shows c ports buffer) (data : List (Int × List Int)) :
    (m.loadAll data).Shows c ports buffer := by
  induction data generalizing m with
  | nil => exact h
  | cons d ds ih => exact ih (h.load d.1 d.2)

/-- A load that is complete has the next words prefetched, unless its own word was. -/
theorem completeLoad (h : m.Shows c ports buffer) (addr : Int) :
    (m.completeLoad addr).2.Shows c ports
      (if buffer.contains (m.wrap addr) = false ∧ c.prefetchStride ≠ 0 then
        ((Memory.fresh c).window (m.wrap addr)).map (·.1)
      else buffer) := by
  have hRest : (m.completeLoad addr).2 = { m with
      buffer := (m.completeLoad addr).2.buffer, prefetchHits := (m.completeLoad addr).2.prefetchHits
      prefetchFills := (m.completeLoad addr).2.prefetchFills } := by
    rw [Memory.completeLoad_rest]
  have hBuffer := m.completeLoad_buffer addr
  rw [h.buffered, h.stride] at hBuffer
  have hSame : (m.completeLoad addr).2.buffer.map (·.1) =
      if buffer.contains (m.wrap addr) = false ∧ c.prefetchStride ≠ 0 then
        ((Memory.fresh c).window (m.wrap addr)).map (·.1)
      else buffer := by
    rw [hBuffer]
    cases buffer.contains (m.wrap addr) <;> by_cases hNone : c.prefetchStride = 0 <;>
      simp [hNone, h.buffer, h.windowed]
  rw [← hSame]
  exact h.rebuffer hRest

/-! What is granted, and what is refused. -/

/-- Every bank has its ports and its latency. -/
theorem bank (h : m.Shows c ports buffer) {i : Nat} (hPlace : i < c.bankCount) :
    ∃ b, m.banks[i]? = some b ∧ b.latency = c.memLatency ∧ b.busyUntil = ports i := by
  have hBank : m.banks[i]? = some _ := Array.getElem?_eq_getElem (h.count ▸ hPlace)
  exact ⟨_, hBank, h.latency i _ hBank, h.ports i _ hBank⟩

/-- A load of a prefetched word takes one tick and no port. -/
theorem begin_hit (h : m.Shows c ports buffer) {addr : Int} (cycle : Int) {isLoad : Bool}
    (hHit : (isLoad && buffer.contains (m.wrap addr)) = true) :
    (m.begin addr cycle isLoad).1 = some 1 ∧
      (m.begin addr cycle isLoad).2.Shows c ports buffer := by
  unfold Memory.begin
  dsimp only
  rw [h.buffered, if_pos hHit]
  refine ⟨rfl, ?_⟩
  rw [← h.buffer]
  exact h.rebuffer rfl

/-- Any other access needs a port of its bank, and takes it for the latency. -/
theorem begin_miss (h : m.Shows c ports buffer) {addr : Int} (cycle : Nat) {isLoad : Bool}
    (hMiss : (isLoad && buffer.contains (m.wrap addr)) = false)
    (hPlace : m.bankOf addr < c.bankCount) (hPorts : ports (m.bankOf addr) ≠ []) :
    (opening (ports (m.bankOf addr)) ≤ cycle →
      (m.begin addr cycle isLoad).1 = some c.memLatency ∧
        (m.begin addr cycle isLoad).2.Shows c
          (fun i => if i = m.bankOf addr then takePort cycle c.memLatency (ports i) else ports i)
          buffer) ∧
    (cycle < opening (ports (m.bankOf addr)) →
      (m.begin addr cycle isLoad).1 = none ∧
        (m.begin addr cycle isLoad).2.Shows c ports buffer) := by
  obtain ⟨b, hBank, hLatency, hBusy⟩ := h.bank hPlace
  obtain ⟨hTaken, hSame, hGranted⟩ := b.reserve_ports cycle c.memLatency
  have hFree := Bank.freePort_isSome_iff (b := b) (by rw [hBusy]; exact hPorts) cycle
  rw [← hGranted, hBusy] at hFree
  rw [hBusy] at hTaken
  have hNoHit : ¬(isLoad && buffer.contains (m.wrap addr)) = true := by
    rw [hMiss]
    exact Bool.false_ne_true
  unfold Memory.begin
  dsimp only
  rw [h.buffered, if_neg hNoHit, hBank]
  dsimp only
  rw [hLatency]
  have hAfter := h.onBank (m.bankOf addr) (f := fun _ => (b.reserve cycle c.memLatency).2) _
    fun _ _ _ => ⟨hSame.trans hLatency, hTaken⟩
  constructor
  · intro hOpen
    rw [if_pos (hFree.mpr hOpen)]
    refine ⟨rfl, hAfter.congr fun i => ?_⟩
    by_cases hHere : i = m.bankOf addr <;> simp [hHere]
  · intro hShut
    have hRefused : ¬(b.reserve cycle c.memLatency).1 = true := fun hIs =>
      Nat.not_le.mpr hShut (hFree.mp hIs)
    rw [if_neg hRefused]
    refine ⟨rfl, hAfter.congr fun i => ?_⟩
    by_cases hHere : i = m.bankOf addr
    · rw [if_pos hHere, hHere, takePort_of_shut (shut_of_lt_opening hShut)]
    · rw [if_neg hHere]

/-- A bank keeps a burst waiting as long as none of its ports is free. -/
theorem bankBusy (h : m.Shows c ports buffer) {i cycle : Nat} (hPlace : i < c.bankCount)
    (hPorts : ports i ≠ []) : m.bankBusy cycle i = true ↔ cycle < opening (ports i) := by
  obtain ⟨b, hBank, -, hBusy⟩ := h.bank hPlace
  have hFree := Bank.freePort_isSome_iff (b := b) (by rw [hBusy]; exact hPorts) cycle
  rw [hBusy] at hFree
  unfold Memory.bankBusy Bank.busy
  simp only [hBank]
  rw [← Nat.not_le, ← hFree, Option.isNone_iff_eq_none, Bool.not_eq_true, Option.isSome_eq_false_iff,
    Option.isNone_iff_eq_none]

/-- Reserving some banks shows in these. -/
theorem reserveEach (h : m.Shows c ports buffer) (cycle ticks : Nat) {banks : List Nat}
    (hNodup : banks.Nodup) :
    (Memory.reserveEach cycle ticks m banks).Shows c
      (fun i => if banks.contains i then takePort cycle (max (ticks : Int) c.memLatency) (ports i)
        else ports i) buffer := by
  induction banks generalizing m ports with
  | nil => exact h
  | cons i rest ih =>
      rw [List.nodup_cons] at hNodup
      have hOne := h.onBank i (f := fun b => (b.reserve cycle (max (ticks : Int) b.latency)).2)
        (takePort cycle (max (ticks : Int) c.memLatency) (ports i)) (by
          intro b hLatency hBusy
          obtain ⟨hTaken, hSame, -⟩ := b.reserve_ports cycle (max (ticks : Int) c.memLatency)
          rw [hBusy] at hTaken
          rw [hLatency]
          exact ⟨hSame.trans hLatency, hTaken⟩)
      refine (ih hOne hNodup.2).congr fun j => ?_
      by_cases hHere : j = i
      · subst hHere
        simp [hNodup.1]
      · simp [hHere]

/-- Refusing does not show. -/
theorem refuseAll (h : m.Shows c ports buffer) (banks : List Nat) :
    (banks.foldl (fun m i => m.onBank i Bank.refuse) m).Shows c ports buffer := by
  induction banks generalizing m with
  | nil => exact h
  | cons i rest ih => exact ih (h.onBank_same i (fun _ => rfl) fun _ => rfl)

/-- A burst takes a port of every bank that it needs, once all of them have one. -/
theorem reserveBurst (h : m.Shows c ports buffer) (hPorts : ∀ i, ports i ≠ []) (addrs : List Int)
    (cycle ticks : Nat) :
    ((m.reserveBurst addrs cycle ticks).1 = [] ↔
      ∀ i ∈ (Memory.fresh c).touched addrs, opening (ports i) ≤ cycle) ∧
    ((m.reserveBurst addrs cycle ticks).1 = [] →
      (m.reserveBurst addrs cycle ticks).2.Shows c
        (fun i => if ((Memory.fresh c).touched addrs).contains i then
          takePort cycle (max (ticks : Int) c.memLatency) (ports i) else ports i) buffer) ∧
    ((m.reserveBurst addrs cycle ticks).1 ≠ [] →
      (m.reserveBurst addrs cycle ticks).2.Shows c ports buffer) := by
  have hPlace : ∀ i ∈ (Memory.fresh c).touched addrs, i < c.bankCount := by
    intro i hTouched
    unfold Memory.touched at hTouched
    have hLess := List.mem_range.mp (List.mem_filter.mp hTouched).1
    rw [show (Memory.fresh c).banks.size = c.bankCount from Array.size_replicate] at hLess
    exact hLess
  have hNodup : ((Memory.fresh c).touched addrs).Nodup := by
    unfold Memory.touched
    exact List.nodup_range.filter _
  have hFree : ((Memory.fresh c).touched addrs).filter (m.bankBusy cycle) = [] ↔
      ∀ i ∈ (Memory.fresh c).touched addrs, opening (ports i) ≤ cycle := by
    rw [List.filter_eq_nil_iff]
    refine forall_congr' fun i => forall_congr' fun hTouched => ?_
    rw [h.bankBusy (hPlace i hTouched) (hPorts i), Nat.not_lt]
  unfold Memory.reserveBurst
  dsimp only
  rw [h.touched]
  by_cases hNone : ((Memory.fresh c).touched addrs).filter (m.bankBusy cycle) = []
  · rw [hNone]
    exact ⟨⟨fun _ => hFree.mp hNone, fun _ => rfl⟩, fun _ => h.reserveEach cycle ticks hNodup,
      fun hNot => absurd rfl hNot⟩
  · rw [if_neg (by rw [List.isEmpty_iff]; exact hNone)]
    exact ⟨hFree, fun hIs => absurd hIs hNone, fun _ => h.refuseAll _⟩

end Shows

end Memory

end AccelPipe

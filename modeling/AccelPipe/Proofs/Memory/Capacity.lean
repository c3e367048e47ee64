import AccelPipe.Proofs.Memory.History

/-! The capacity of the banks is exact. A bank has as many reservations at a time as it has ports
and no more, and it refuses an access or a burst only when it has that many. -/
namespace AccelPipe

/-- A port of a bank that has been granted from a cycle on for some ticks. -/
structure Reservation where
  bank : Nat
  cycle : Int
  ticks : Int
deriving DecidableEq

namespace Reservation

def ActiveAt (r : Reservation) (bank : Nat) (cycle : Int) : Prop :=
  r.bank = bank ∧ r.cycle ≤ cycle ∧ cycle < r.cycle + r.ticks
deriving Decidable

/-- How many reservations of a log a bank has at a cycle. -/
def active (log : List Reservation) (bank : Nat) (cycle : Int) : Nat :=
  log.countP (·.ActiveAt bank cycle)

end Reservation

namespace Bank

/-- The bank after a port that was free at a cycle has been taken for some ticks. -/
structure Takes (b : Bank) (cycle ticks : Int) (b' : Bank) : Prop where
  port : ∃ p t, b.busyUntil[p]? = some t ∧ t ≤ cycle ∧
    b' = { b with busyUntil := b.busyUntil.set p (cycle + ticks), accesses := b.accesses + 1 }

/-- What a call does to a bank, and how many ports it puts in use. -/
inductive Goes (b : Bank) (cycle : Int) : Bank → (Int → Nat) → Prop
  | same {b' : Bank} (hTimers : b'.busyUntil = b.busyUntil) (hLatency : b'.latency = b.latency) :
      Goes b cycle b' fun _ => 0
  | takes {b' : Bank} {ticks : Int} (hTakes : b.Takes cycle ticks b') :
      Goes b cycle b' fun t => if cycle ≤ t ∧ t < cycle + ticks then 1 else 0

/-- The timers of a bank show how many of its ports are in use, from a time on. -/
structure Counts (b : Bank) (n latency : Nat) (used : Int → Nat) (now : Int) : Prop where
  ports : b.busyUntil.length = n
  latency : b.latency = latency
  timers : ∀ t, now ≤ t → used t = b.busyUntil.countP (t < ·)
  within : ∀ t, used t ≤ n

namespace Counts

variable {b b' : Bank} {n latency : Nat} {used : Int → Nat} {now cycle ticks : Int}

/-- No port is free just when all of them are in use. -/
theorem busy_iff (h : b.Counts n latency used now) (hTime : now ≤ cycle) :
    b.busy cycle = true ↔ used cycle = n := by
  rw [h.timers cycle hTime, ← h.ports, List.countP_eq_length]
  simp [Bank.busy, Bank.freePort]

/-- A bank that gives up a free port has one more in use for so long. -/
theorem take (h : b.Counts n latency used now) (hTime : now ≤ cycle)
    (hTakes : b.Takes cycle ticks b') :
    b'.Counts n latency
      (fun t => used t + if cycle ≤ t ∧ t < cycle + ticks then 1 else 0) cycle := by
  obtain ⟨p, old, hPlace, hFree, rfl⟩ := hTakes.port
  obtain ⟨hLess, hOld⟩ := List.getElem?_eq_some_iff.mp hPlace
  have hTimers : ∀ t, cycle ≤ t → used t + (if cycle ≤ t ∧ t < cycle + ticks then 1 else 0) =
      (b.busyUntil.set p (cycle + ticks)).countP (t < ·) := by
    intro t hLater
    rw [List.countP_set hLess, ← h.timers t (Int.le_trans hTime hLater), hOld]
    -- the timer that is overwritten has run out before
    have hOut : ¬ t < old := Int.not_lt.mpr (Int.le_trans hFree hLater)
    simp [hOut, hLater]
  refine ⟨List.length_set.trans h.ports, h.latency, hTimers, fun t => ?_⟩
  by_cases hLater : cycle ≤ t
  · rw [hTimers t hLater, ← h.ports, ← List.length_set]
    exact List.countP_le_length
  · simpa [hLater] using h.within t

/-- Whatever a call does to a bank, its timers keep count. -/
theorem goes {more : Int → Nat} (h : b.Counts n latency used now) (hTime : now ≤ cycle)
    (hGoes : b.Goes cycle b' more) : b'.Counts n latency (fun t => used t + more t) cycle := by
  cases hGoes with
  | same hTimers hLatency =>
      refine ⟨(congrArg List.length hTimers).trans h.ports, hLatency.trans h.latency,
        fun t hLater => ?_, h.within⟩
      rw [Nat.add_zero, hTimers]
      exact h.timers t (Int.le_trans hTime hLater)
  | takes hTakes => exact h.take hTime hTakes

end Counts

/-- A bank with a free port grants it. -/
theorem takes_of_free {b : Bank} {cycle : Int} (hFree : b.busy cycle = false) (ticks : Int) :
    (b.reserve cycle ticks).1 = true ∧ b.Takes cycle ticks (b.reserve cycle ticks).2 := by
  unfold busy at hFree
  unfold reserve
  cases hPort : b.freePort cycle with
  | none =>
      rw [hPort] at hFree
      cases hFree
  | some p =>
      obtain ⟨hLess, hFirst, -⟩ := List.findIdx?_eq_some_iff_getElem.mp hPort
      exact ⟨rfl, p, _, List.getElem?_eq_getElem hLess, of_decide_eq_true hFirst, rfl⟩

/-- A bank without one refuses, and counts the conflict. -/
theorem reserve_of_busy {b : Bank} {cycle : Int} (hBusy : b.busy cycle = true) (ticks : Int) :
    b.reserve cycle ticks = (false, b.refuse) := by
  unfold reserve
  rw [Option.isNone_iff_eq_none.mp hBusy]

end Bank

namespace Memory

variable {m : Memory}

/-- Whether a load finds its word in the prefetch buffer, so that it needs no port. -/
def buffered (m : Memory) (addr : Int) (isLoad : Bool) : Bool :=
  isLoad && (m.buffer.lookup (m.wrap addr)).isSome

/-- The reservations that the answer to a call grants. -/
def Call.granted (latency : Nat) (m : Memory) : Call → List Reservation
  | .begin addr cycle isLoad =>
    match (m.begin addr cycle isLoad).1 with
    | some ticks => if m.buffered addr isLoad then [] else [⟨m.bankOf addr, cycle, ticks⟩]
    | none => []
  | .burst addrs cycle ticks =>
    if (m.reserveBurst addrs cycle ticks).1 = [] then
      (m.touched addrs).map fun i => ⟨i, cycle, max ticks latency⟩
    else []
  | .load .. | .poke .. | .completeLoad _ | .completeStore .. => []

/-- The cycle at which a call is made, if it does not come before the cycle of the call before. A
burst takes at least a tick. -/
inductive Call.At (now : Int) : Call → Int → Prop
  | begin {cycle : Int} (hLater : now ≤ cycle) (addr : Int) (isLoad : Bool) :
      At now (.begin addr cycle isLoad) cycle
  | burst {cycle ticks : Int} (hLater : now ≤ cycle) (hTicks : 1 ≤ ticks) (addrs : List Int) :
      At now (.burst addrs cycle ticks) cycle
  | load (addr : Int) (words : List Int) : At now (.load addr words) now
  | poke (addr value : Int) : At now (.poke addr value) now
  | completeLoad (addr : Int) : At now (.completeLoad addr) now
  | completeStore (addr value : Int) : At now (.completeStore addr value) now

/-- What a fresh memory has become by a cycle, and the reservations that it has granted. -/
inductive Books (c : Config) : Memory → List Reservation → Int → Prop
  | fresh : Books c (fresh c) [] 0
  | call {m : Memory} {log : List Reservation} {now cycle : Int} {request : Call}
      (h : Books c m log now) (hAt : request.At now cycle) :
      Books c (m.call request) (log ++ request.granted c.memLatency m) cycle

/-! What a request does to the banks. -/

/-- The memory after some of its banks have been changed. -/
def onBanks (m : Memory) (banks : List Nat) (f : Bank → Bank) : Memory :=
  { m with banks := m.banks.mapIdx fun i b => if i ∈ banks then f b else b }

/-- A change to some banks leaves the others alone. -/
theorem getElem?_onBanks (m : Memory) (banks : List Nat) (f : Bank → Bank) (i : Nat) :
    (m.onBanks banks f).banks[i]? = m.banks[i]?.map fun b => if i ∈ banks then f b else b :=
  Array.getElem?_mapIdx

/-- Changing different banks one by one changes all of them. -/
theorem foldl_onBank (m : Memory) {banks : List Nat} (hNodup : banks.Nodup) (f : Bank → Bank) :
    banks.foldl (fun m i => m.onBank i f) m = m.onBanks banks f := by
  induction banks generalizing m with
  | nil =>
      have hSame : m.banks.mapIdx (fun _ b => b) = m.banks := Array.ext_getElem? (by simp)
      simp only [List.foldl_nil, onBanks, List.not_mem_nil, if_false, hSame]
  | cons i rest ih =>
      obtain ⟨hNot, hRest⟩ := List.nodup_cons.mp hNodup
      rw [List.foldl_cons, ih _ hRest]
      unfold onBanks onBank
      congr 1
      apply Array.ext_getElem?
      intro j
      rw [Array.getElem?_mapIdx, Array.getElem?_mapIdx, Array.getElem?_modify]
      by_cases hHere : i = j
      · subst hHere
        rw [if_pos rfl, Option.map_map]
        simp only [Function.comp_def, hNot, if_false, List.mem_cons_self, if_true]
      · simp [hHere, Ne.symm hHere]

theorem onBank_eq (m : Memory) {i : Nat} {b : Bank} (hBank : m.banks[i]? = some b)
    (f : Bank → Bank) : (m.onBank i fun _ => f b) = m.onBanks [i] f := by
  rw [← foldl_onBank m (show [i].Nodup by simp) f]
  unfold onBank
  congr 1
  apply Array.ext_getElem?
  intro j
  rw [Array.getElem?_modify, Array.getElem?_modify]
  split
  · rename_i hHere
    rw [← hHere, hBank]
    rfl
  · rfl

/-- Banks are reserved one by one, each for its own latency at least. -/
theorem reserveEach_eq_foldl (m : Memory) (cycle ticks : Int) (banks : List Nat) :
    reserveEach cycle ticks m banks =
      banks.foldl (fun m i => m.onBank i fun b => (b.reserve cycle (max ticks b.latency)).2) m := by
  induction banks generalizing m with
  | nil => rfl
  | cons i rest ih => exact ih _

/-- No bank is asked twice in a burst. -/
theorem touched_nodup (m : Memory) (addrs : List Int) : (m.touched addrs).Nodup :=
  List.nodup_range.filter _

/-- A burst asks for the banks of its addresses. -/
theorem mem_touched (hEven : m.Even) {addrs : List Int} {i : Nat} :
    i ∈ m.touched addrs ↔ ∃ a ∈ addrs, m.bankOf a = i := by
  unfold touched
  simp only [List.mem_filter, List.mem_range, List.contains_iff_mem, List.mem_map]
  refine ⟨And.right, fun h => ⟨?_, h⟩⟩
  obtain ⟨a, -, rfl⟩ := h
  exact locate_bank_lt hEven a

/-- A burst asks all banks that it touches. If some are busy it counts a conflict on each of them,
else it takes a port on each. -/
theorem reserveBurst_eq (m : Memory) (addrs : List Int) (cycle ticks : Int) :
    m.reserveBurst addrs cycle ticks =
      let blocked := (m.touched addrs).filter (m.bankBusy cycle)
      (blocked,
        if blocked = [] then
          m.onBanks (m.touched addrs) fun b => (b.reserve cycle (max ticks b.latency)).2
        else m.onBanks blocked Bank.refuse) := by
  have hNodup := m.touched_nodup addrs
  unfold reserveBurst
  dsimp only
  rw [reserveEach_eq_foldl, foldl_onBank m hNodup, foldl_onBank m (hNodup.filter _)]
  by_cases hNone : (m.touched addrs).filter (m.bankBusy cycle) = []
  · simp only [hNone, List.isEmpty_nil, if_true]
  · simp only [List.isEmpty_iff, hNone, if_false]

/-- An access that needs a port asks the bank of its address. -/
theorem begin_eq (hEven : m.Even) {addr : Int} {isLoad : Bool}
    (hMiss : m.buffered addr isLoad = false) (cycle : Int) :
    ∃ b, m.banks[m.bankOf addr]? = some b ∧ m.begin addr cycle isLoad =
      if b.busy cycle then (none, m.onBanks [m.bankOf addr] Bank.refuse)
      else (some b.latency,
        m.onBanks [m.bankOf addr] fun b => (b.reserve cycle b.latency).2) := by
  obtain ⟨b, hBank⟩ : ∃ b, m.banks[m.bankOf addr]? = some b :=
    ⟨_, Array.getElem?_eq_getElem (locate_bank_lt hEven addr)⟩
  refine ⟨b, hBank, ?_⟩
  rw [← onBank_eq m hBank, ← onBank_eq m hBank]
  unfold buffered at hMiss
  unfold begin
  dsimp only
  rw [hMiss, hBank]
  cases hBusy : b.busy cycle with
  | true => simp [Bank.reserve_of_busy hBusy]
  | false => simp [(Bank.takes_of_free hBusy _).1]

/-- A load of a prefetched word takes one tick and no bank. -/
theorem begin_of_buffered {addr : Int} {isLoad : Bool} (hHit : m.buffered addr isLoad = true)
    (cycle : Int) :
    m.begin addr cycle isLoad = (some 1, { m with prefetchHits := m.prefetchHits + 1 }) := by
  unfold buffered at hHit
  unfold begin
  dsimp only
  rw [if_pos hHit]

open Reservation

/-- Reservations of two logs add up. -/
theorem active_append (log more : List Reservation) (i : Nat) :
    active (log ++ more) i = fun t => active log i t + active more i t :=
  funext fun _ => List.countP_append

/-- One reservation on each of some different banks. -/
theorem active_map {banks : List Nat} (hNodup : banks.Nodup) (cycle ticks : Int) (i : Nat) :
    active (banks.map fun j => ⟨j, cycle, ticks⟩) i =
      if i ∈ banks then fun t => if cycle ≤ t ∧ t < cycle + ticks then 1 else 0 else fun _ => 0 := by
  induction banks with
  | nil => rfl
  | cons j rest ih =>
      obtain ⟨hNot, hRest⟩ := List.nodup_cons.mp hNodup
      rw [List.map_cons, ← List.singleton_append, active_append, ih hRest]
      funext t
      by_cases hHere : j = i
      · subst hHere
        simp [active, ActiveAt, hNot, List.countP_singleton]
      · simp [active, ActiveAt, hHere, Ne.symm hHere]

/-- A memory whose timers show the reservations of a log, bank by bank. -/
structure Booked (c : Config) (m : Memory) (log : List Reservation) (now : Int) : Prop where
  count : m.banks.size = c.bankCount
  counts : ∀ (i : Nat) (b : Bank), m.banks[i]? = some b →
    b.Counts c.ports c.memLatency (active log i) now

namespace Booked

variable {c : Config} {m' : Memory} {log more : List Reservation} {now cycle : Int}

/-- The books of a fresh memory are empty. -/
theorem fresh (c : Config) : Booked c (Memory.fresh c) [] 0 where
  count := Array.size_replicate
  counts i b hBank := by
    obtain rfl := bank_of_fresh hBank
    refine ⟨List.length_replicate, rfl, fun t hTime => ?_, fun t => Nat.zero_le _⟩
    simp [active, Bank.fresh, List.countP_replicate, Int.not_lt.mpr hTime]

/-- The log goes on with what happens to the banks. -/
theorem goes (h : Booked c m log now) (hTime : now ≤ cycle) (hCount : m'.banks.size = m.banks.size)
    (hBanks : ∀ (i : Nat) (b' : Bank), m'.banks[i]? = some b' →
      ∃ b, m.banks[i]? = some b ∧ b.Goes cycle b' (active more i)) :
    Booked c m' (log ++ more) cycle where
  count := hCount.trans h.count
  counts i b' hBank := by
    obtain ⟨b, hOld, hGoes⟩ := hBanks i b' hBank
    rw [active_append]
    exact (h.counts i b hOld).goes hTime hGoes

/-- What leaves the timers of all banks alone is not in the log. -/
theorem same (h : Booked c m log now) (hTime : now ≤ cycle) (hCount : m'.banks.size = m.banks.size)
    (hBanks : ∀ (i : Nat) (b' : Bank), m'.banks[i]? = some b' → ∃ b, m.banks[i]? = some b ∧
      b'.busyUntil = b.busyUntil ∧ b'.latency = b.latency) :
    Booked c m' (log ++ []) cycle := by
  refine h.goes hTime hCount fun i b' hBank => ?_
  obtain ⟨b, hOld, hTimers, hLatency⟩ := hBanks i b' hBank
  exact ⟨b, hOld, .same hTimers hLatency⟩

/-- Words that are written need no port. -/
theorem poke (h : Booked c m log now) (addr value : Int) :
    Booked c (m.poke addr value) log now := by
  rw [← List.append_nil log]
  refine h.same (Int.le_refl now) Array.size_modify ?_
  intro i b' hBank
  have hModified : (m.banks.modify (m.locate addr).1 _)[i]? = some b' := hBank
  rw [Array.getElem?_modify] at hModified
  split at hModified
  · obtain ⟨b, hOld, rfl⟩ := Option.map_eq_some_iff.mp hModified
    exact ⟨b, hOld, rfl, rfl⟩
  · exact ⟨b', hModified, rfl, rfl⟩

theorem load (h : Booked c m log now) (addr : Int) (words : List Int) :
    Booked c (m.load addr words) log now := by
  induction words generalizing m addr with
  | nil => exact h
  | cons w ws ih => exact ih (h.poke addr w) (addr + 1)

/-- Time alone changes no reservation. -/
theorem of_banks (h : Booked c m log now) (hTime : now ≤ cycle) (hBanks : m'.banks = m.banks) :
    Booked c m' (log ++ []) cycle := by
  refine h.same hTime (congrArg Array.size hBanks) fun i b' hBank => ?_
  rw [hBanks] at hBank
  exact ⟨b', hBank, rfl, rfl⟩

/-- The end of a load needs no port either. -/
theorem completeLoad (h : Booked c m log now) (addr : Int) :
    Booked c (m.completeLoad addr).2 log now := by
  rw [← List.append_nil log, completeLoad_rest]
  exact h.of_banks (Int.le_refl now) rfl

/-- What is refused is not in the books. -/
theorem refuse (h : Booked c m log now) (hTime : now ≤ cycle) (banks : List Nat) :
    Booked c (m.onBanks banks Bank.refuse) (log ++ []) cycle := by
  refine h.same hTime Array.size_mapIdx fun i b' hBank => ?_
  rw [getElem?_onBanks] at hBank
  obtain ⟨b, hOld, rfl⟩ := Option.map_eq_some_iff.mp hBank
  refine ⟨b, hOld, ?_⟩
  split <;> exact ⟨rfl, rfl⟩

/-- What is granted is, once for every bank. -/
theorem take (h : Booked c m log now) (hTime : now ≤ cycle) {banks : List Nat}
    (hNodup : banks.Nodup) {f : Bank → Bank} {ticks : Int}
    (hTakes : ∀ i ∈ banks, ∀ b, m.banks[i]? = some b → b.Takes cycle ticks (f b)) :
    Booked c (m.onBanks banks f) (log ++ banks.map fun i => ⟨i, cycle, ticks⟩) cycle := by
  refine h.goes hTime Array.size_mapIdx fun i b' hBank => ?_
  rw [getElem?_onBanks] at hBank
  obtain ⟨b, hOld, rfl⟩ := Option.map_eq_some_iff.mp hBank
  refine ⟨b, hOld, ?_⟩
  rw [active_map hNodup]
  by_cases hHere : i ∈ banks
  · rw [if_pos hHere, if_pos hHere]
    exact .takes (hTakes i hHere b hOld)
  · rw [if_neg hHere, if_neg hHere]
    exact .same rfl rfl

/-- An access is in the books if it has been granted. -/
theorem begin (h : Booked c m log now) (hEven : m.Even) (hTime : now ≤ cycle) (addr : Int)
    (isLoad : Bool) : Booked c (m.begin addr cycle isLoad).2
      (log ++ Call.granted c.memLatency m (.begin addr cycle isLoad)) cycle := by
  unfold Call.granted
  dsimp only
  cases hHit : m.buffered addr isLoad with
  | true =>
      rw [begin_of_buffered hHit]
      exact h.of_banks hTime rfl
  | false =>
      obtain ⟨b, hBank, hBegin⟩ := begin_eq hEven hHit cycle
      rw [hBegin]
      cases hBusy : b.busy cycle with
      | true => exact h.refuse hTime _
      | false =>
          refine h.take hTime (by simp) fun i hOwn b' hBank' => ?_
          rw [List.mem_singleton.mp hOwn, hBank] at hBank'
          cases hBank'
          exact (Bank.takes_of_free hBusy _).2

/-- If none of its banks is busy, a burst gets a port of each. -/
theorem takes (h : Booked c m log now) {addrs : List Int}
    (hFree : (m.touched addrs).filter (m.bankBusy cycle) = []) (ticks : Int) :
    ∀ i ∈ m.touched addrs, ∀ b, m.banks[i]? = some b →
      b.Takes cycle (max ticks c.memLatency) (b.reserve cycle (max ticks b.latency)).2 := by
  intro i hTouched b hBank
  have hIdle := List.filter_eq_nil_iff.mp hFree i hTouched
  unfold bankBusy at hIdle
  rw [hBank] at hIdle
  rw [(h.counts i b hBank).latency]
  exact (Bank.takes_of_free ((Bool.not_eq_true _).mp hIdle) _).2

/-- A burst is in the books with all its banks, or with none. -/
theorem burst (h : Booked c m log now) (hTime : now ≤ cycle) (addrs : List Int) (ticks : Int) :
    Booked c (m.reserveBurst addrs cycle ticks).2
      (log ++ Call.granted c.memLatency m (.burst addrs cycle ticks)) cycle := by
  unfold Call.granted
  dsimp only
  rw [reserveBurst_eq]
  dsimp only
  by_cases hFree : (m.touched addrs).filter (m.bankBusy cycle) = []
  · rw [if_pos hFree, if_pos hFree]
    exact h.take hTime (m.touched_nodup addrs) (h.takes hFree ticks)
  · rw [if_neg hFree, if_neg hFree]
    exact h.refuse hTime _

/-- So every call is in the books as it has been answered. -/
theorem call (h : Booked c m log now) (hEven : m.Even) {request : Call}
    (hAt : request.At now cycle) :
    Booked c (m.call request) (log ++ request.granted c.memLatency m) cycle := by
  cases hAt with
  | begin hTime addr isLoad => exact h.begin hEven hTime addr isLoad
  | burst hTime _ addrs => exact h.burst hTime addrs _
  | load addr words => exact (List.append_nil log).symm ▸ h.load addr words
  | poke addr value => exact (List.append_nil log).symm ▸ h.poke addr value
  | completeLoad addr => exact (List.append_nil log).symm ▸ h.completeLoad addr
  | completeStore addr value => exact (List.append_nil log).symm ▸ h.poke addr value

end Booked

namespace Books

variable {c : Config} {log : List Reservation} {now : Int}

/-- A memory with books has banks of the same size. -/
theorem even (hValid : c.Valid) (h : Books c m log now) : m.Even := by
  have hPast : ∃ writes, m.Remembers writes := by
    induction h with
    | fresh => exact ⟨[], .fresh hValid⟩
    | call _ _ ih =>
        obtain ⟨writes, hBefore⟩ := ih
        exact ⟨_, hBefore.call _⟩
  obtain ⟨_, hPast⟩ := hPast
  exact hPast.toEven

/-- After any calls the timers of the banks agree with the books. -/
theorem booked (hValid : c.Valid) (h : Books c m log now) : Booked c m log now := by
  induction h with
  | fresh => exact .fresh c
  | call hBefore hAt ih => exact ih.call (hBefore.even hValid) hAt

end Books

/-- What is known about a memory that has granted the reservations of a log. -/
structure Exact (c : Config) (m : Memory) (log : List Reservation) (now : Int) : Prop where
  banks : m.banks.size = c.bankCount
  /-- The timers show the reservations that have not run out. -/
  timers : ∀ (i : Nat) (b : Bank), m.banks[i]? = some b → ∀ cycle, now ≤ cycle →
    active log i cycle = b.busyUntil.countP (cycle < ·)
  /-- No bank ever has more active reservations than ports. -/
  capacity : ∀ i < c.bankCount, ∀ cycle, active log i cycle ≤ c.ports
  /-- An access that needs a port is refused just when its bank is full. -/
  refusedAccess : ∀ addr cycle isLoad, now ≤ cycle → m.buffered addr isLoad = false →
    ((m.begin addr cycle isLoad).1 = none ↔ active log (m.bankOf addr) cycle = c.ports)
  /-- Else it takes a port for the latency. -/
  grantedAccess : ∀ addr cycle isLoad, m.buffered addr isLoad = false →
    (m.begin addr cycle isLoad).1 ≠ none → (m.begin addr cycle isLoad).1 = some c.memLatency ∧
      ∃ f, (m.begin addr cycle isLoad).2 = m.onBanks [m.bankOf addr] f ∧
        ∀ b, m.banks[m.bankOf addr]? = some b → b.Takes cycle c.memLatency (f b)
  /-- A burst is answered with the banks that it touches and that are full, in their order. -/
  blocked : ∀ addrs cycle ticks, now ≤ cycle →
    (m.reserveBurst addrs cycle ticks).1.Pairwise (· < ·) ∧
      ∀ i, i ∈ (m.reserveBurst addrs cycle ticks).1 ↔
        (∃ a ∈ addrs, m.bankOf a = i) ∧ active log i cycle = c.ports
  /-- If there are such banks it counts a conflict on each of them, and it changes nothing else. -/
  refusedBurst : ∀ addrs cycle ticks, (m.reserveBurst addrs cycle ticks).1 ≠ [] →
    (m.reserveBurst addrs cycle ticks).2 =
      m.onBanks (m.reserveBurst addrs cycle ticks).1 Bank.refuse
  /-- Else it takes a port for its ticks, or for the latency if that is more, on every bank that it
  touches, and none on the others. -/
  grantedBurst : ∀ addrs cycle ticks, (m.reserveBurst addrs cycle ticks).1 = [] →
    ∃ f, (m.reserveBurst addrs cycle ticks).2 = m.onBanks (m.touched addrs) f ∧
      (∀ i, i ∈ m.touched addrs ↔ ∃ a ∈ addrs, m.bankOf a = i) ∧
      (∀ i ∈ m.touched addrs, ∀ b, m.banks[i]? = some b →
        b.Takes cycle (max ticks c.memLatency) (f b)) ∧
      ∀ i t, active (Call.granted c.memLatency m (.burst addrs cycle ticks)) i t =
        if i ∈ m.touched addrs ∧ cycle ≤ t ∧ t < cycle + max ticks c.memLatency then 1 else 0

namespace Booked

variable {c : Config} {log : List Reservation} {now cycle : Int}

/-- A bank is busy just when it has as many reservations as ports. -/
theorem bankBusy_iff (h : Booked c m log now) (hTime : now ≤ cycle) {i : Nat}
    (hPlace : i < m.banks.size) : m.bankBusy cycle i = true ↔ active log i cycle = c.ports := by
  obtain ⟨b, hBank⟩ : ∃ b, m.banks[i]? = some b := ⟨_, Array.getElem?_eq_getElem hPlace⟩
  unfold bankBusy
  rw [hBank]
  exact (h.counts i b hBank).busy_iff hTime

/-- An access is refused just when its bank has as many reservations as ports. -/
theorem refused_iff (h : Booked c m log now) (hEven : m.Even) (hTime : now ≤ cycle) {addr : Int}
    {isLoad : Bool} (hMiss : m.buffered addr isLoad = false) :
    (m.begin addr cycle isLoad).1 = none ↔ active log (m.bankOf addr) cycle = c.ports := by
  obtain ⟨b, hBank, hBegin⟩ := begin_eq hEven hMiss cycle
  rw [hBegin, ← (h.counts _ b hBank).busy_iff hTime]
  cases b.busy cycle <;> simp

/-- An access that is granted takes a free port for the latency of the memory, and changes nothing
else. -/
theorem granted (h : Booked c m log now) (hEven : m.Even) {addr : Int} {isLoad : Bool}
    (hMiss : m.buffered addr isLoad = false) (hGranted : (m.begin addr cycle isLoad).1 ≠ none) :
    (m.begin addr cycle isLoad).1 = some c.memLatency ∧
      ∃ f, (m.begin addr cycle isLoad).2 = m.onBanks [m.bankOf addr] f ∧
        ∀ b, m.banks[m.bankOf addr]? = some b → b.Takes cycle c.memLatency (f b) := by
  obtain ⟨b, hBank, hBegin⟩ := begin_eq hEven hMiss cycle
  have hLatency := (h.counts _ b hBank).latency
  rw [hBegin] at hGranted ⊢
  cases hBusy : b.busy cycle with
  | true =>
      rw [hBusy] at hGranted
      exact absurd rfl hGranted
  | false =>
      refine ⟨congrArg some hLatency, _, rfl, fun b' hBank' => ?_⟩
      rw [hBank] at hBank'
      cases hBank'
      rw [hLatency]
      exact (Bank.takes_of_free hBusy _).2

/-- The banks that block a burst are those that are full, in order. -/
theorem blocked (h : Booked c m log now) (hEven : m.Even) (hTime : now ≤ cycle) (addrs : List Int)
    (ticks : Int) :
    (m.reserveBurst addrs cycle ticks).1.Pairwise (· < ·) ∧
      ∀ i, i ∈ (m.reserveBurst addrs cycle ticks).1 ↔
        (∃ a ∈ addrs, m.bankOf a = i) ∧ active log i cycle = c.ports := by
  rw [reserveBurst_eq]
  refine ⟨(List.pairwise_lt_range.filter _).filter _, fun i => ?_⟩
  rw [List.mem_filter, mem_touched hEven]
  refine and_congr_right ?_
  rintro ⟨a, -, rfl⟩
  exact h.bankBusy_iff hTime (locate_bank_lt hEven a)

/-- So the books say exactly what every call is answered. -/
theorem exact (h : Booked c m log now) (hEven : m.Even) : Exact c m log now where
  banks := h.count
  timers i b hBank := (h.counts i b hBank).timers
  capacity i hPlace cycle := by
    rw [← h.count] at hPlace
    exact (h.counts i _ (Array.getElem?_eq_getElem hPlace)).within cycle
  refusedAccess _ _ _ hTime hMiss := h.refused_iff hEven hTime hMiss
  grantedAccess _ _ _ hMiss hGranted := h.granted hEven hMiss hGranted
  blocked addrs _ ticks hTime := h.blocked hEven hTime addrs ticks
  refusedBurst addrs cycle ticks hRefused := by
    rw [reserveBurst_eq] at hRefused ⊢
    exact if_neg hRefused
  grantedBurst addrs cycle ticks hGranted := by
    have hNone : (m.touched addrs).filter (m.bankBusy cycle) = [] := by
      rwa [reserveBurst_eq] at hGranted
    refine ⟨_, ?_, fun _ => mem_touched hEven, h.takes hNone ticks, fun i t => ?_⟩
    · rw [reserveBurst_eq]
      exact if_pos hNone
    · unfold Call.granted
      dsimp only
      rw [if_pos hGranted, active_map (m.touched_nodup addrs)]
      by_cases hHere : i ∈ m.touched addrs <;> simp [hHere]

end Booked

/-- The capacity of the banks is exact, whatever has been asked of them. -/
theorem books_exact {c : Config} (hValid : c.Valid) {log : List Reservation} {now : Int}
    (h : Books c m log now) : Exact c m log now :=
  (h.booked hValid).exact (h.even hValid)

/-- An access and a burst, which names one bank twice, fill that bank for two cycles. -/
theorem books_exact_of_overlap :
    let m := (fresh .slow).callAll [.begin 2 0 false, .burst [2, 10, 0] 1 5]
    let log : List Reservation := [⟨1, 0, 3⟩, ⟨0, 1, 5⟩, ⟨1, 1, 5⟩]
    Books .slow m log 1 ∧ Exact .slow m log 1 ∧ m.buffered 2 true = false ∧
      (m.begin 2 2 true).1 = none ∧ (m.begin 2 3 true).1 = some 3 ∧
      (m.reserveBurst [3, 3, 4, -6] 2 1).1 = [1] ∧ (m.reserveBurst [3, 3, 4, -6] 3 1).1 = [] := by
  intro m log
  have hLog : [] ++ Call.granted 3 (fresh .slow) (.begin 2 0 false) ++
      Call.granted 3 ((fresh .slow).call (.begin 2 0 false)) (.burst [2, 10, 0] 1 5) = log := by
    decide +kernel
  have hBooks : Books .slow m log 1 := by
    rw [← hLog]
    exact .call (.call .fresh (.begin (by decide) 2 false))
      (.burst (by decide) (by decide) [2, 10, 0])
  have hExact := books_exact Config.valid_slow hBooks
  have hMiss : m.buffered 2 true = false := by decide +kernel
  refine ⟨hBooks, hExact, hMiss, ?_, by decide +kernel, by decide +kernel, by decide +kernel⟩
  exact (hExact.refusedAccess 2 2 true (by decide) hMiss).mpr (by decide +kernel)

end Memory

end AccelPipe

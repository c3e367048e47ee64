import AccelPipe.Proofs.Memory.Load

/-! Until when the ports of the memory are taken. An access waits for a bank only as long as
accesses before it have reserved its ports. -/
namespace AccelPipe

/-- A bank that has a port, with its latency, and a time from which on all ports are free. -/
structure Bank.Timed (b : Bank) (latency : Nat) (time : Int) : Prop where
  ports : b.busyUntil ≠ []
  latency : b.latency = latency
  free : ∀ t ∈ b.busyUntil, t ≤ time

namespace Bank.Timed

variable {b : Bank} {latency : Nat} {time : Int}

theorem mono (h : b.Timed latency time) {time' : Int} (hLater : time ≤ time') :
    b.Timed latency time' :=
  ⟨h.ports, h.latency, fun t hMem => Int.le_trans (h.free t hMem) hLater⟩

theorem refuse (h : b.Timed latency time) : b.refuse.Timed latency time :=
  ⟨h.ports, h.latency, h.free⟩

theorem setWord (h : b.Timed latency time) (offset : Nat) (value : Int) :
    (b.setWord offset value).Timed latency time :=
  ⟨h.ports, h.latency, h.free⟩

/-- Once all ports are free there is one that can be taken. -/
theorem freePort (h : b.Timed latency time) {cycle : Int} (hFree : time ≤ cycle) :
    ∃ port, b.freePort cycle = some port := by
  obtain ⟨t, hMem⟩ := List.exists_mem_of_ne_nil _ h.ports
  rw [← Option.isSome_iff_exists]
  unfold Bank.freePort
  rw [List.findIdx?_isSome, List.any_eq_true]
  exact ⟨t, hMem, decide_eq_true (Int.le_trans (h.free t hMem) hFree)⟩

theorem reserve (h : b.Timed latency time) (cycle ticks : Int) {time' : Int}
    (hTime : time ≤ time') (hTicks : cycle + ticks ≤ time') :
    (b.reserve cycle ticks).2.Timed latency time' := by
  unfold Bank.reserve
  cases b.freePort cycle with
  | none => exact h.refuse.mono hTime
  | some port =>
      refine ⟨?_, h.latency, ?_⟩
      · intro hNone
        exact h.ports ((List.set_eq_nil_iff _ _).mp hNone)
      · intro t hMem
        rcases List.mem_or_eq_of_mem_set hMem with hOld | rfl
        · exact Int.le_trans (h.free t hOld) hTime
        · exact hTicks

end Bank.Timed

namespace Memory

/-- All banks have a port and the latency, and all ports are free from a time on. -/
def Timed (m : Memory) (latency : Nat) (time : Int) : Prop :=
  ∀ (i : Nat) (b : Bank), m.banks[i]? = some b → b.Timed latency time

namespace Timed

variable {m : Memory} {latency : Nat} {time : Int}

theorem mono (h : m.Timed latency time) {time' : Int} (hLater : time ≤ time') :
    m.Timed latency time' :=
  fun i b hBank => (h i b hBank).mono hLater

theorem onBank (h : m.Timed latency time) {time' : Int} (hLater : time ≤ time') (i : Nat)
    {f : Bank → Bank} (hBank : ∀ b, b.Timed latency time → (f b).Timed latency time') :
    (m.onBank i f).Timed latency time' := by
  intro j b hHere
  obtain ⟨old, hOld, rfl⟩ := bank_of_onBank hHere
  split
  · exact hBank old (h j old hOld)
  · exact (h j old hOld).mono hLater

theorem poke (h : m.Timed latency time) (addr value : Int) : (m.poke addr value).Timed latency time :=
  h.onBank (Int.le_refl time) _ fun _ hBank => hBank.setWord _ _

theorem completeLoad (h : m.Timed latency time) (addr : Int) :
    (m.completeLoad addr).2.Timed latency time := by
  rw [completeLoad_rest]
  exact h

theorem load (h : m.Timed latency time) (addr : Int) (words : List Int) :
    (m.load addr words).Timed latency time := by
  induction words generalizing m addr with
  | nil => exact h
  | cons w ws ih => exact ih (h.poke addr w) (addr + 1)

theorem loadAll (h : m.Timed latency time) (data : List (Int × List Int)) :
    (m.loadAll data).Timed latency time := by
  induction data generalizing m with
  | nil => exact h
  | cons d ds ih => exact ih (h.load d.1 d.2)

/-- An access takes its port for no longer than the latency. -/
theorem begin (h : m.Timed latency time) (addr : Int) {cycle : Int} (isLoad : Bool) {time' : Int}
    (hLater : time ≤ time') (hTicks : cycle + latency ≤ time') :
    (m.begin addr cycle isLoad).2.Timed latency time' := by
  unfold Memory.begin
  dsimp only
  split
  · exact h.mono hLater
  · cases hBank : m.banks[m.bankOf addr]? with
    | none => exact h.mono hLater
    | some b =>
        have hTimed := h _ b hBank
        refine h.onBank hLater _ fun _ _ => hTimed.reserve _ _ hLater ?_
        rw [hTimed.latency]
        exact hTicks

/-- An access that begins takes one tick or the latency. -/
theorem begin_ticks (h : m.Timed latency time) {addr cycle : Int} {isLoad : Bool} {ticks : Nat}
    (hBegin : (m.begin addr cycle isLoad).1 = some ticks) : ticks = 1 ∨ ticks = latency := by
  unfold Memory.begin at hBegin
  dsimp only at hBegin
  split at hBegin
  · exact .inl (Option.some.inj hBegin).symm
  · cases hBank : m.banks[m.bankOf addr]? with
    | none =>
        rw [hBank] at hBegin
        cases hBegin
    | some b =>
        rw [hBank] at hBegin
        dsimp only at hBegin
        obtain ⟨-, hTicks⟩ := Option.ite_none_right_eq_some.mp hBegin
        exact .inr ((Option.some.inj hTicks).symm.trans (h _ b hBank).latency)

/-- An access is refused only while a port is taken. -/
theorem begin_refused (h : m.Timed latency time) (hEven : m.Even) {addr cycle : Int}
    {isLoad : Bool} (hRefused : (m.begin addr cycle isLoad).1 = none) : cycle < time := by
  apply Int.not_le.mp
  intro hFree
  unfold Memory.begin at hRefused
  dsimp only at hRefused
  split at hRefused
  · cases hRefused
  · have hBank : m.banks[m.bankOf addr]? = some _ :=
      Array.getElem?_eq_getElem (locate_bank_lt hEven addr)
    obtain ⟨port, hPort⟩ := (h _ _ hBank).freePort hFree
    rw [hBank] at hRefused
    simp only [Bank.reserve, hPort, if_true, reduceCtorEq] at hRefused

/-- An access that is refused takes no port. -/
theorem begin_of_refused (h : m.Timed latency time) {addr cycle : Int} {isLoad : Bool}
    (hRefused : (m.begin addr cycle isLoad).1 = none) :
    (m.begin addr cycle isLoad).2.Timed latency time := by
  unfold Memory.begin at hRefused ⊢
  dsimp only at hRefused ⊢
  split at hRefused
  · cases hRefused
  · rename_i hBuffered
    rw [if_neg hBuffered]
    cases hBank : m.banks[m.bankOf addr]? with
    | none => exact h
    | some b =>
        rw [hBank] at hRefused
        dsimp only at hRefused ⊢
        refine h.onBank (Int.le_refl time) _ fun _ _ => ?_
        unfold Bank.reserve at hRefused ⊢
        cases hPort : b.freePort cycle with
        | none => exact (h _ b hBank).refuse
        | some port =>
            rw [hPort] at hRefused
            cases hRefused

/-- A burst takes its ports for its ticks or the latency. -/
theorem reserveEach (h : m.Timed latency time) {cycle ticks : Int} {time' : Int}
    (hLater : time ≤ time') (hTicks : cycle + max ticks latency ≤ time') (banks : List Nat) :
    (reserveEach cycle ticks m banks).Timed latency time' := by
  induction banks generalizing m time with
  | nil => exact h.mono hLater
  | cons i rest ih =>
      refine ih (h.onBank hLater i fun b hBank => hBank.reserve _ _ hLater ?_) (Int.le_refl time')
      rw [hBank.latency]
      exact hTicks

theorem refuseAll (h : m.Timed latency time) (banks : List Nat) :
    (banks.foldl (fun m i => m.onBank i Bank.refuse) m).Timed latency time := by
  induction banks generalizing m with
  | nil => exact h
  | cons i rest ih => exact ih (h.onBank (Int.le_refl time) i fun _ hBank => hBank.refuse)

/-- A burst takes ports only if it is granted. -/
theorem reserveBurst (h : m.Timed latency time) (addrs : List Int) {cycle ticks : Int} {time' : Int}
    (hLater : time ≤ time')
    (hTicks : (m.reserveBurst addrs cycle ticks).1 = [] → cycle + max ticks latency ≤ time') :
    (m.reserveBurst addrs cycle ticks).2.Timed latency time' := by
  unfold Memory.reserveBurst at hTicks ⊢
  dsimp only at hTicks ⊢
  split
  · rename_i hGranted
    rw [if_pos hGranted] at hTicks
    exact h.reserveEach hLater (hTicks rfl) _
  · exact (h.refuseAll _).mono hLater

/-- A burst is refused only while a port is taken. -/
theorem burst_refused (h : m.Timed latency time) {addrs : List Int} {cycle ticks : Int}
    (hRefused : (m.reserveBurst addrs cycle ticks).1 ≠ []) : cycle < time := by
  apply Int.not_le.mp
  intro hFree
  apply hRefused
  have hNone : (m.touched addrs).filter (m.bankBusy cycle) = [] := by
    rw [List.filter_eq_nil_iff]
    intro i _
    unfold Memory.bankBusy
    cases hBank : m.banks[i]? with
    | none => nofun
    | some b =>
        obtain ⟨port, hPort⟩ := (h i b hBank).freePort hFree
        dsimp only [Bank.busy]
        rw [hPort]
        nofun
  unfold Memory.reserveBurst
  dsimp only
  rw [hNone]
  rfl

end Timed

/-- At the start of a run all ports are free. -/
theorem timed_fresh {c : Config} (hValid : c.Valid) : (fresh c).Timed c.memLatency 0 := by
  intro i b hBank
  obtain rfl := bank_of_fresh hBank
  refine ⟨?_, rfl, ?_⟩
  · have hPorts : 0 < c.ports := by
      have hValidPorts := hValid.ports
      omega
    intro hNone
    have hLength := congrArg List.length hNone
    simp only [Bank.fresh, List.length_replicate, List.length_nil] at hLength
    omega
  · intro t hMem
    exact Int.le_of_eq (List.eq_of_mem_replicate hMem)

end Memory

end AccelPipe

import AccelPipe.Proofs.Timetable.Doors

/-! A pipeline that keeps to its timetable. Every slot is in its stage for as long as the timetable
says, and the memory shows what the instructions up to there have left behind. -/
namespace AccelPipe

open Pipeline

namespace Timetable

variable (b : Timetable)

/-- The timetable after the instruction of a slot, if the slot holds one. -/
def past (slot : Option Slot) : Timetable := if slot.isSome then b.next else b

@[simp] theorem past_none : b.past none = b := rfl

@[simp] theorem past_some (s : Slot) : b.past (some s) = b.next := rfl

theorem machine_past (slot : Option Slot) : (b.past slot).machine = b.machine.past slot := by
  cases slot <;> rfl

theorem config_past (slot : Option Slot) : (b.past slot).config = b.config := by
  cases slot <;> rfl

theorem Sound.past {b : Timetable} (h : b.Sound) (slot : Option Slot) : (b.past slot).Sound := by
  cases slot with
  | none => exact h
  | some s => exact h.next

/-- The bank that the slot in Memory still waits for. -/
def awaited (mem : Option Slot) : Option Nat :=
  if mem.any (fun s => !s.started) then b.door else none

/-- The ports with these slots in Memory and Execute. -/
def portsNow (mem ex : Option Slot) (i : Nat) : List Int :=
  if b.awaited mem = some i then b.ports i
  else if ex.any (·.started) then (b.past mem).burst i else (b.past mem).ports i

end Timetable

namespace Slot

/-- A slot in Memory is there for its time, and has begun its access when it was to. -/
structure InMemory (s : Slot) (b : Timetable) (now : Nat) : Prop where
  arrived : b.arrives ≤ now
  inside : now < b.retires
  waiting : s.started = false → now < b.begins
  running : s.started = true → b.begins ≤ now ∧ now + s.remaining = b.retires

/-- A slot in Execute is there for its time, and has started when it was to. -/
structure InExecute (s : Slot) (b : Timetable) (now : Nat) : Prop where
  entered : b.executes ≤ now
  inside : now < b.arrives
  waiting : s.started = false → now < b.starts
  running : s.started = true → b.starts ≤ now ∧ s.remaining = b.worked - now

end Slot

/-- Writeback, Memory and Execute keep to a timetable. -/
structure Punctual (b : Timetable) (now : Nat) (m : Memory) (wb mem ex : Option Slot) : Prop where
  sound : b.Sound
  retired : (b.past wb).writeback ≤ now
  written : wb.isSome = true → (b.past wb).writeback = now
  memory : ∀ s, mem = some s → s.InMemory (b.past wb) now
  execute : ∀ s, ex = some s → s.InExecute ((b.past wb).past mem) now
  shows : m.Shows b.config ((b.past wb).portsNow mem ex) (b.past wb).buffer

namespace Timetable

variable {b : Timetable}

theorem awaited_fresh {s : Slot} (h : s.started = false) : b.awaited (some s) = b.door := by
  unfold awaited
  simp [h]

theorem awaited_started {s : Slot} (h : s.started = true) : b.awaited (some s) = none := by
  unfold awaited
  simp [h]

theorem portsNow_of_none {mem : Option Slot} (h : b.awaited mem = none) (ex : Option Slot) :
    b.portsNow mem ex = (b.past mem).portsNow none ex := by
  funext i
  unfold portsNow
  rw [h]
  rfl

/-- An instruction that has its access behind it, or has none, has left its ports behind. -/
theorem portsNow_past (mem ex : Option Slot) {i : Nat} (h : b.awaited mem ≠ some i) :
    b.portsNow mem ex i = (b.past mem).portsNow none ex i := by
  unfold portsNow
  rw [if_neg h]
  rfl

theorem portsNow_ne_nil (h : b.Sound) (mem ex : Option Slot) (i : Nat) :
    b.portsNow mem ex i ≠ [] := by
  unfold portsNow
  split
  · exact h.ports i
  · split
    · exact (h.past mem).burst i
    · exact (h.past mem).ports i

/-! What happens when a slot in Memory asks for its access. -/

section Begin

variable {m : Memory} {s : Slot} {ex : Option Slot}

theorem begin_of_hits (now : Nat) (h : b.hits = true) (hFresh : s.started = false)
    (hShows : m.Shows b.config (b.portsNow (some s) ex) b.buffer) :
    (m.begin b.machine.address now (b.instruction.kind == .load)).1 = some 1 ∧
      (m.begin b.machine.address now (b.instruction.kind == .load)).2.Shows b.config
        (b.next.portsNow none ex) b.buffer := by
  have hHit : (b.instruction.kind == .load && b.buffer.contains (m.wrap b.machine.address)) =
      true := by
    rw [hShows.wrap]
    exact h
  obtain ⟨hOne, hAfter⟩ := hShows.begin_hit now hHit
  rw [portsNow_of_none (by rw [awaited_fresh hFresh, door_of_hits h])] at hAfter
  exact ⟨hOne, hAfter⟩

/-- A slot that needs a port gets it as soon as one is free. -/
theorem begin_of_misses (now : Nat) (h : b.hits = false) (hSound : b.Sound)
    (hKind : b.instruction.kind = .load ∨ b.instruction.kind = .store)
    (hPlace : m.bankOf b.machine.address < b.config.bankCount) (hFresh : s.started = false)
    (hShows : m.Shows b.config (b.portsNow (some s) ex) b.buffer) {i : Nat}
    (hDoor : b.door = some i) :
    (opening (b.ports i) ≤ now → b.begins = now + 1 →
      (∀ e, ex = some e → e.started = true → b.next.starts ≤ now) →
      (m.begin b.machine.address now (b.instruction.kind == .load)).1 = some b.config.memLatency ∧
        (m.begin b.machine.address now (b.instruction.kind == .load)).2.Shows b.config
          (b.next.portsNow none ex) b.buffer) ∧
    (now < opening (b.ports i) →
      (m.begin b.machine.address now (b.instruction.kind == .load)).1 = none ∧
        (m.begin b.machine.address now (b.instruction.kind == .load)).2.Shows b.config
          (b.portsNow (some s) ex) b.buffer) := by
  have hMiss : (b.instruction.kind == .load && b.buffer.contains (m.wrap b.machine.address)) =
      false := by
    rw [hShows.wrap]
    exact h
  have hBank : m.bankOf b.machine.address = i := by
    rw [door_of_miss hKind h] at hDoor
    rw [hShows.bankOf]
    exact Option.some.inj hDoor
  have hHere : b.portsNow (some s) ex i = b.ports i := by
    unfold portsNow
    rw [awaited_fresh hFresh, if_pos hDoor]
  obtain ⟨hOpen, hShut⟩ := hShows.begin_miss now hMiss hPlace
    (portsNow_ne_nil hSound _ _ _)
  rw [hBank, hHere] at hOpen hShut
  refine ⟨fun hFree hNow hEx => ⟨(hOpen hFree).1, (hOpen hFree).2.congr fun j => ?_⟩, hShut⟩
  by_cases hSame : j = i
  · subst hSame
    have hTaken := ports_next_of_door hDoor
    rw [hNow, Nat.add_sub_cancel] at hTaken
    rw [if_pos rfl, hHere, ← hTaken]
    unfold portsNow
    rw [if_neg nofun]
    cases ex with
    | none => rfl
    | some e =>
        cases hStarted : e.started with
        | false => simp [hStarted]
        | true =>
            -- a burst that has started has not come before the access
            have hNot : j ∉ b.next.doors := by
              intro hBurst
              have hOrder := hSound.begins_le_starts_next hDoor hBurst
              have hEarly := hEx e rfl hStarted
              omega
            simp [hStarted, burst_of_not_mem hNot]
  · rw [if_neg hSame]
    refine (portsNow_past (some s) ex ?_).symm
    rw [awaited_fresh hFresh, hDoor]
    exact fun hIs => hSame (Option.some.inj hIs).symm

end Begin

end Timetable

namespace Pipeline

variable {b : Timetable} {p q : Pipeline} {s : Slot} {ex : Option Slot} {now : Nat}

theorem begunAccess_fst (p : Pipeline) (addr : Int) (isLoad : Bool) :
    (p.begunAccess addr isLoad).1 = (p.memory.begin addr p.cycle isLoad).1 := rfl

/-- An access in Memory has begun by the end of the tick, and has left what the timetable says. -/
theorem Access.punctual {left : Nat}
    (h : Access p s b.machine.address (b.instruction.kind == .load) q left)
    (hKind : b.instruction.kind = .load ∨ b.instruction.kind = .store) (hSound : b.Sound)
    (hPlace : p.memory.bankOf b.machine.address < b.config.bankCount) (hCycle : p.cycle = now)
    (hSlot : s.InMemory b now) (hEx : ∀ e, ex = some e → e.started = true → b.next.starts ≤ now)
    (hShows : p.memory.Shows b.config (b.portsNow (some s) ex) b.buffer) :
    b.begins ≤ now + 1 ∧ now + left = b.retires ∧
      q.memory.Shows b.config (b.next.portsNow none ex) b.buffer := by
  cases h with
  | goesOn hStarted =>
      obtain ⟨hBegun, hLeft⟩ := hSlot.running hStarted
      rw [Timetable.portsNow_of_none (Timetable.awaited_started hStarted)] at hShows
      exact ⟨Nat.le_succ_of_le hBegun, hLeft, hShows⟩
  | begins hFresh hBegin =>
      have hArrived := hSlot.arrived
      have hWaits := hSlot.waiting hFresh
      have hMemory := begunAccess_memory p b.machine.address (b.instruction.kind == .load)
      have hTicks := begunAccess_fst p b.machine.address (b.instruction.kind == .load)
      rw [hBegin, hCycle] at hMemory hTicks
      rw [show q.memory = _ from hMemory]
      cases hHits : b.hits with
      | true =>
          obtain ⟨hOne, hAfter⟩ := Timetable.begin_of_hits now hHits hFresh hShows
          obtain rfl := Option.some.inj (hTicks.trans hOne)
          have hNone := Timetable.door_of_hits hHits
          have hBegins := Timetable.begins_of_none hNone
          have hRetires := Timetable.retires_of_none hNone
          exact ⟨by omega, by omega, hAfter⟩
      | false =>
          have hDoor := Timetable.door_of_miss hKind hHits
          have hBegins := Timetable.begins_of_door hDoor
          have hRetires := Timetable.retires_of_door hDoor
          obtain ⟨hOpen, hShut⟩ := Timetable.begin_of_misses now hHits hSound hKind hPlace
            hFresh hShows hDoor
          have hFree := Nat.not_lt.mp fun hLess => nomatch hTicks.trans (hShut hLess).1
          have hNow : b.begins = now + 1 := by omega
          obtain ⟨hGranted, hAfter⟩ := hOpen hFree hNow hEx
          obtain rfl := Option.some.inj (hTicks.trans hGranted)
          exact ⟨by omega, by omega, hAfter⟩

/-- A slot that is refused its bank is not late. -/
theorem refused_punctual (hBegin : p.begunAccess b.machine.address
      (b.instruction.kind == .load) = (none, q))
    (hKind : b.instruction.kind = .load ∨ b.instruction.kind = .store) (hSound : b.Sound)
    (hPlace : p.memory.bankOf b.machine.address < b.config.bankCount) (hCycle : p.cycle = now)
    (hFresh : s.started = false) (hSlot : s.InMemory b now)
    (hEx : ∀ e, ex = some e → e.started = true → b.next.starts ≤ now)
    (hShows : p.memory.Shows b.config (b.portsNow (some s) ex) b.buffer) :
    now + 1 < b.begins ∧ q.memory.Shows b.config (b.portsNow (some s) ex) b.buffer := by
  have hArrived := hSlot.arrived
  have hWaits := hSlot.waiting hFresh
  have hMemory := begunAccess_memory p b.machine.address (b.instruction.kind == .load)
  have hTicks := begunAccess_fst p b.machine.address (b.instruction.kind == .load)
  rw [hBegin, hCycle] at hMemory hTicks
  rw [show q.memory = _ from hMemory]
  cases hHits : b.hits with
  | true =>
      obtain ⟨hOne, -⟩ := Timetable.begin_of_hits now hHits hFresh hShows
      cases hTicks.trans hOne
  | false =>
      have hDoor := Timetable.door_of_miss hKind hHits
      have hBegins := Timetable.begins_of_door hDoor
      obtain ⟨hOpen, hShut⟩ := Timetable.begin_of_misses now hHits hSound hKind hPlace
        hFresh hShows hDoor
      have hLess : now < opening (b.ports (b.place.bankOf b.machine.address)) := by
        apply Nat.not_le.mp
        intro hFree
        cases hTicks.trans (hOpen hFree (by omega) hEx).1
      exact ⟨by omega, (hShut hLess).2⟩

end Pipeline

end AccelPipe

import AccelPipe.Proofs.Timetable.Punctual

/-! One tick of Memory, Execute and Decode on time. A slot moves on in the tick before the timetable
has it in the next stage, and in no other. -/
namespace AccelPipe

open Pipeline

/-! Memory. -/

/-- After the tick of Memory, with the instruction that was in Writeback behind. -/
structure Cleared (b : Timetable) (now : Nat) (m : Memory) (mem ex wb' mem' : Option Slot)
    (free : Bool) : Prop where
  same : (b.past wb').past mem' = b.past mem
  retired : (b.past wb').writeback ≤ now + 1
  written : wb'.isSome = true → (b.past wb').writeback = now + 1
  memory : ∀ s, mem' = some s → s.InMemory (b.past wb') (now + 1)
  free : free = true ↔ (b.past mem).writeback ≤ now + 1
  shows : m.Shows b.config ((b.past wb').portsNow mem' ex) (b.past wb').buffer

namespace Pipeline

variable {b : Timetable} {p : Pipeline} {s : Slot} {ex : Option Slot} {now : Nat}

/-- A slot leaves Memory in the tick before the timetable has it in Writeback, and in no other. -/
theorem MemoryMove.punctual {step : StageStep} (h : MemoryMove p s b.instruction step)
    (hSound : b.Sound) (hExecuted : s.Executed b.machine) (hEven : p.memory.Even)
    (hCycle : p.cycle = now) (hSlot : s.InMemory b now)
    (hEx : ∀ e, ex = some e → e.started = true → b.next.starts ≤ now)
    (hShows : p.memory.Shows b.config (b.portsNow (some s) ex) b.buffer) :
    (step.done = true ∧ b.retires = now + 1 ∧
      step.pipeline.memory.Shows b.config (b.next.portsNow none ex) b.next.buffer) ∨
    (step.done = false ∧ step.slot.InMemory b (now + 1) ∧
      step.pipeline.memory.Shows b.config (b.portsNow (some step.slot) ex) b.buffer) := by
  have hArrived := hSlot.arrived
  have hInside := hSlot.inside
  have hPlace : p.memory.bankOf b.machine.address < b.config.bankCount := by
    rw [← hShows.count]
    exact Memory.locate_bank_lt hEven _
  have hAddress : ∀ addr, s.memAddr = some addr → addr = b.machine.address := by
    intro addr hIs
    unfold Machine.address
    rw [← show s.memAddr = _ from congrArg Work.memAddr hExecuted.work, hIs]
    rfl
  have hAddr := Memory.Shows.wrap hShows b.machine.address
  cases h with
  | passes hLoad hStore =>
      have hNone := Timetable.door_of_plain hLoad hStore
      have hBegins := Timetable.begins_of_none hNone
      have hRetires := Timetable.retires_of_none hNone
      have hFresh : s.started = false := by
        cases hIs : s.started with
        | false => rfl
        | true =>
            have hRunning := hSlot.running hIs
            omega
      have hBuffer : b.next.buffer = b.buffer := by
        simp [Timetable.next, hLoad]
      rw [Timetable.portsNow_of_none (by rw [Timetable.awaited_fresh hFresh, hNone])] at hShows
      rw [hBuffer]
      exact .inl ⟨rfl, by omega, hShows⟩
  | refused hKind hIs hFresh hBegin =>
      obtain rfl := hAddress _ hIs
      obtain ⟨hLate, hAfter⟩ :=
        refused_punctual hBegin hKind hSound hPlace hCycle hFresh hSlot hEx hShows
      have hBefore := hSound.begins_le_retires
      exact .inr ⟨rfl, ⟨by omega, by omega, fun _ => hLate, fun hNot => by
        rw [show s.started = true from hNot] at hFresh
        cases hFresh⟩, hAfter⟩
  | waits hKind hIs hAccess hLeft =>
      obtain rfl := hAddress _ hIs
      obtain ⟨hBegun, hTime, hAfter⟩ :=
        hAccess.punctual hKind hSound hPlace hCycle hSlot hEx hShows
      refine .inr ⟨rfl, ⟨by omega, by omega, nofun, fun _ => ⟨hBegun, ?_⟩⟩, ?_⟩
      · dsimp only
        omega
      · rw [Timetable.portsNow_of_none (Timetable.awaited_started rfl)]
        exact hAfter
  | loads hKind hIs hAccess hLeft =>
      obtain rfl := hAddress _ hIs
      obtain ⟨-, hTime, hAfter⟩ :=
        hAccess.punctual (.inl hKind) hSound hPlace hCycle hSlot hEx hShows
      have hLoaded := hAfter.completeLoad b.machine.address
      rw [hAfter.wrap] at hLoaded
      refine .inl ⟨rfl, by omega, ?_⟩
      have hBuffer : b.next.buffer =
          if b.buffer.contains ((Memory.fresh b.config).wrap b.machine.address) = false ∧
              b.config.prefetchStride ≠ 0 then
            ((Memory.fresh b.config).window
              ((Memory.fresh b.config).wrap b.machine.address)).map (·.1)
          else b.buffer := by
        simp [Timetable.next, Timetable.hits, Timetable.place, hKind]
      rw [hBuffer]
      exact hLoaded
  | stores hKind hIs hValue hAccess hLeft =>
      obtain rfl := hAddress _ hIs
      obtain ⟨-, hTime, hAfter⟩ :=
        hAccess.punctual (.inr hKind) hSound hPlace hCycle hSlot hEx hShows
      have hBuffer : b.next.buffer = b.buffer := by
        simp [Timetable.next, hKind]
      rw [hBuffer]
      exact .inl ⟨rfl, by omega, hAfter.poke _ _⟩

/-- A tick of Memory keeps to the timetable. -/
theorem MemoryRound.punctual {mem : Option Slot} {m : Making} {free : Bool}
    (h : MemoryRound p b.instruction mem m free) (hSound : b.Sound)
    (hExecuted : ∀ s, mem = some s → s.Executed b.machine) (hEven : p.memory.Even)
    (hCycle : p.cycle = now) (hRetired : b.writeback ≤ now)
    (hMemory : ∀ s, mem = some s → s.InMemory b now)
    (hExecute : ∀ s, ex = some s → s.InExecute (b.past mem) now)
    (hShows : p.memory.Shows b.config (b.portsNow mem ex) b.buffer) :
    Cleared b now m.pipeline.memory mem ex m.next.writeback m.next.memory free := by
  cases h with
  | empty =>
      refine ⟨rfl, Nat.le_succ_of_le hRetired, ?_, ?_,
        iff_of_true rfl (Nat.le_succ_of_le hRetired), hShows⟩
      · intro hIs
        cases hIs
      · intro s hIs
        cases hIs
  | @moves s step hMove =>
      have hSlot := hMemory s rfl
      rcases hMove.punctual hSound (hExecuted s rfl) hEven hCycle hSlot
          (fun e hIs hStarted => ((hExecute e hIs).running hStarted).1) hShows with
        ⟨hDone, hRetires, hAfter⟩ | ⟨hDone, hStays, hAfter⟩
      · rw [hDone]
        refine ⟨rfl, Nat.le_of_eq hRetires, fun _ => hRetires, ?_,
          iff_of_true rfl (Nat.le_of_eq hRetires), hAfter⟩
        intro t hIs
        cases hIs
      · rw [hDone]
        refine ⟨rfl, Nat.le_succ_of_le hRetired, ?_, ?_, ?_, hAfter⟩
        · intro hIs
          cases hIs
        · intro t hIs
          obtain rfl := Option.some.inj hIs
          exact hStays
        · have hInside := hStays.inside
          exact iff_of_false nofun (Nat.not_le.mpr hInside)

end Pipeline

/-! Execute. -/

namespace Timetable

variable {b : Timetable} {mem : Option Slot} {e e' : Slot} {now : Nat}

theorem portsNow_congr (h : e.started = e'.started) (b : Timetable) (mem : Option Slot) :
    b.portsNow mem (some e) = b.portsNow mem (some e') := by
  unfold portsNow
  simp [h]

theorem portsNow_fresh (h : e.started = false) (b : Timetable) (mem : Option Slot) :
    b.portsNow mem (some e) = b.portsNow mem none := by
  unfold portsNow
  simp [h]

theorem portsNow_none (b : Timetable) : b.portsNow none none = b.ports := rfl

theorem portsNow_started (h : e.started = true) (b : Timetable) :
    b.portsNow none (some e) = b.burst := by
  funext i
  unfold portsNow
  rw [Option.any_some, if_pos h]
  rfl

/-- An instruction that has just come to Memory has done its burst. -/
theorem portsNow_arrived (h : e.started = false) (b : Timetable) :
    b.portsNow (some e) none = b.burst := by
  funext i
  unfold portsNow
  rw [awaited_fresh h]
  by_cases hDoor : b.door = some i
  · rw [if_pos hDoor, burst_of_reads (reads_of_door hDoor)]
  · rw [if_neg hDoor]
    exact ports_next_of_not hDoor

/-- A bank that Memory still waits for is open neither now nor when Memory has had it. -/
theorem shut_of_awaited (hSound : b.Sound)
    (hMemory : ∀ s, mem = some s → s.InMemory b (now + 1)) (hArrived : (b.past mem).memory ≤ now)
    {i : Nat} (h : b.awaited mem = some i) :
    now < opening (b.ports i) ∧ now < opening ((b.past mem).ports i) := by
  cases mem with
  | none => cases h
  | some s =>
      cases hStarted : s.started with
      | true =>
          rw [awaited_started hStarted] at h
          cases h
      | false =>
          rw [awaited_fresh hStarted] at h
          have hWaits := (hMemory s rfl).waiting hStarted
          have hBegins := begins_of_door h
          have hPast : b.arrives ≤ now := hArrived
          have hLater := opening_le_takePort (hSound.ports i) (b.begins - 1) b.config.memLatency
          rw [← ports_next_of_door h] at hLater
          rw [past_some]
          omega

/-- Whether a bank is open for a burst does not depend on what Memory still waits for. -/
theorem opening_portsNow (hSound : b.Sound)
    (hMemory : ∀ s, mem = some s → s.InMemory b (now + 1)) (hArrived : (b.past mem).memory ≤ now)
    (i : Nat) :
    opening (b.portsNow mem none i) ≤ now ↔ opening ((b.past mem).ports i) ≤ now := by
  by_cases hAwaited : b.awaited mem = some i
  · obtain ⟨hShut, hStill⟩ := shut_of_awaited hSound hMemory hArrived hAwaited
    have hHere : b.portsNow mem none i = b.ports i := if_pos hAwaited
    rw [hHere]
    omega
  · rw [portsNow_past mem none hAwaited]
    rfl

end Timetable

/-- The slot `t` that was in Execute, at the end of its tick, before it leaves or stays. The
timetable `b` is its own, and `b'` that behind Writeback. -/
structure Worked (b b' : Timetable) (now : Nat) (m : Memory) (mem' : Option Slot) (t : Slot)
    (done : Bool) : Prop where
  shows : m.Shows b.config (b'.portsNow mem' (some t)) b'.buffer
  waiting : t.started = false → now + 1 < b.starts
  running : t.started = true → b.starts ≤ now + 1 ∧ t.remaining = b.worked - (now + 1)
  done : done = true ↔ b.worked ≤ now + 1

/-- An instruction that does not start stays as it is. -/
theorem Worked.of_waiting {b b' : Timetable} {now : Nat} {m : Memory} {mem' : Option Slot}
    {s t : Slot} (hBefore : s.started = false) (hAfter : t.started = false)
    (hShows : m.Shows b.config (b'.portsNow mem' (some s)) b'.buffer)
    (hLate : now + 1 < b.starts) : Worked b b' now m mem' t false := by
  have hWorked := b.starts_le_worked
  rw [Timetable.portsNow_congr (hBefore.trans hAfter.symm)] at hShows
  refine ⟨hShows, fun _ => hLate, fun hNot => ?_, iff_of_false nofun (by omega)⟩
  rw [hAfter] at hNot
  cases hNot

namespace Pipeline

variable {b b' : Timetable} {p : Pipeline} {s : Slot} {mem mem' : Option Slot} {now : Nat}
  {buffer : List Nat} {f : Hazard.Forwarding}

/-- An instruction that gets its words starts in time, and has taken its ports. -/
theorem Burst.punctual {m : Memory} (h : Burst p b.instruction f.operands mem m)
    (hSame : b'.past mem' = b) (hSound : b'.Sound)
    (hMemory : ∀ s, mem' = some s → s.InMemory b' (now + 1)) (hEntered : b.executes ≤ now)
    (hWaits : now < b.starts) (hCycle : p.cycle = now)
    (hBeats : p.units.beats b.instruction = b.machine.units.beats b.instruction)
    (hReads : ∀ acc : Accelerator, b.instruction.kind = acc.kind →
      (p.units.reads acc b.instruction f.operands = [] ↔ b.machine.reads = []) ∧
      (mem.any (·.isKind .store) = false →
        p.units.reads acc b.instruction f.operands = b.machine.reads))
    (hStores : mem.any (·.isKind .store) = false ↔ b.stores ≤ now + 1)
    (hShows : p.memory.Shows b.config (b'.portsNow mem' none) buffer) {e : Slot}
    (hStarted : e.started = true) :
    b.starts ≤ now + 1 ∧ m.Shows b.config (b'.portsNow mem' (some e)) buffer := by
  cases h with
  | idle hNone =>
      have hWords : b.machine.reads = [] := by
        by_cases hUnit : ∃ acc : Accelerator, b.instruction.kind = acc.kind
        · obtain ⟨acc, hKind⟩ := hUnit
          exact (hReads acc hKind).1.mp (hNone acc hKind)
        · exact Machine.reads_of_plain fun acc hKind => hUnit ⟨acc, hKind⟩
      refine ⟨by rw [Timetable.starts_of_reads hWords]; omega, hShows.congr fun i => ?_⟩
      unfold Timetable.portsNow
      rw [hSame, Timetable.burst_of_reads hWords, ite_self]
      rfl
  | @taken acc hKind hSome hFree hGranted =>
      obtain ⟨hNone, hEqual⟩ := hReads acc hKind
      have hArrived : (b'.past mem').memory ≤ now := by
        rw [hSame]
        exact Nat.le_trans b.memory_le_executes hEntered
      have hWords : b.machine.reads ≠ [] := fun hIs => hSome (hNone.mpr hIs)
      obtain ⟨hAll, hAfter, -⟩ := hShows.reserveBurst (Timetable.portsNow_ne_nil hSound _ _)
        b.machine.reads now (b.machine.units.beats b.instruction)
      rw [hEqual hFree, hCycle, ← Units.beats_of_kind hKind, hBeats] at hGranted ⊢
      have hOpen := hAll.mp hGranted
      have hFreeNow : ∀ i ∈ b.doors, opening (b.ports i) ≤ now := by
        intro i hDoor
        rw [← hSame]
        exact (Timetable.opening_portsNow hSound hMemory hArrived i).mp (hOpen i hDoor)
      have hStart : b.starts ≤ now + 1 := (Timetable.starts_le_iff_of_reads hWords).mpr
        ⟨hEntered, hStores.mp hFree, hFreeNow⟩
      refine ⟨hStart, (hAfter hGranted).congr fun i => ?_⟩
      have hTime : b.starts - 1 = now := by omega
      by_cases hAwaited : b'.awaited mem' = some i
      · have hNot : i ∉ b.doors := by
          intro hDoor
          have hShut := (Timetable.shut_of_awaited hSound hMemory hArrived hAwaited).2
          rw [hSame] at hShut
          exact absurd (hFreeNow i hDoor) (Nat.not_le.mpr hShut)
        have hOut : ¬((Memory.fresh b.config).touched b.machine.reads).contains i = true := by
          rw [List.contains_iff_mem]
          exact hNot
        rw [if_neg hOut]
        unfold Timetable.portsNow
        rw [if_pos hAwaited, if_pos hAwaited]
      · rw [Timetable.portsNow_past mem' (some e) hAwaited,
          Timetable.portsNow_past mem' none hAwaited, hSame, Timetable.portsNow_none,
          Timetable.portsNow_started hStarted]
        unfold Timetable.burst
        rw [hTime]
        rfl

/-- An instruction in Execute starts in time, and works for its time. -/
theorem ExecuteMove.punctual {step : StageStep} (h : ExecuteMove p s b.instruction mem f step)
    (hSame : b'.past mem' = b) (hSound : b'.Sound)
    (hMemory : ∀ s, mem' = some s → s.InMemory b' (now + 1)) (hSlot : s.InExecute b now)
    (hCycle : p.cycle = now)
    (hBeats : p.units.beats b.instruction = b.machine.units.beats b.instruction)
    (hReady : s.started = false → f.ready = true)
    (hReads : s.started = false → ∀ acc : Accelerator, b.instruction.kind = acc.kind →
      (p.units.reads acc b.instruction f.operands = [] ↔ b.machine.reads = []) ∧
      (mem.any (·.isKind .store) = false →
        p.units.reads acc b.instruction f.operands = b.machine.reads))
    (hStores : mem.any (·.isKind .store) = false ↔ b.stores ≤ now + 1)
    (hShows : p.memory.Shows b.config (b'.portsNow mem' (some s)) b'.buffer) :
    Worked b b' now step.pipeline.memory mem' step.slot step.done := by
  have hEntered := hSlot.entered
  have hArrived : (b'.past mem').memory ≤ now := by
    rw [hSame]
    exact Nat.le_trans b.memory_le_executes hEntered
  have hOpening := fun i => Timetable.opening_portsNow hSound hMemory hArrived i
  rw [hSame] at hOpening
  cases h with
  | advances hStarted =>
      obtain ⟨hBegun, hLeft⟩ := hSlot.running hStarted
      refine ⟨hShows, fun hNot => ?_, fun _ => ⟨Nat.le_succ_of_le hBegun, ?_⟩, ?_⟩
      · rw [show (advance s).started = s.started from rfl, hStarted] at hNot
        cases hNot
      · change s.remaining - 1 = _
        omega
      · change (s.remaining - 1 == 0) = true ↔ _
        rw [beq_iff_eq]
        omega
  | unready hFresh hUnready =>
      rw [hReady hFresh] at hUnready
      cases hUnready
  | ordered hFresh _ hKind hSome hAhead =>
      refine .of_waiting hFresh hFresh hShows (Nat.not_le.mp fun hEarly => ?_)
      have hWords : b.machine.reads ≠ [] := fun hNone =>
        hSome (((hReads hFresh _ hKind).1).mpr hNone)
      have hFree := hStores.mpr ((Timetable.starts_le_iff_of_reads hWords).mp hEarly).2.1
      rw [hAhead] at hFree
      cases hFree
  | @blocked acc hFresh _ hKind hBlocked =>
      obtain ⟨hNone, hEqual⟩ := hReads hFresh acc hKind
      rw [hCycle] at hBlocked
      rw [Timetable.portsNow_fresh hFresh] at hShows
      obtain ⟨hGranted, -, hStill⟩ := hShows.reserveBurst (Timetable.portsNow_ne_nil hSound _ _)
        (p.units.reads acc b.instruction f.operands) now (p.units.latency acc)
      have hAfter := hStill hBlocked
      rw [← Timetable.portsNow_fresh hFresh] at hAfter
      refine .of_waiting hFresh hFresh ?_ (Nat.not_le.mp fun hEarly => ?_)
      · rw [hCycle]
        exact hAfter
      · have hWords : b.machine.reads ≠ [] := by
          intro hIs
          refine hBlocked (hGranted.mpr ?_)
          rw [hNone.mpr hIs]
          simp [Memory.touched]
        obtain ⟨-, hFree, hOpen⟩ := (Timetable.starts_le_iff_of_reads hWords).mp hEarly
        refine hBlocked (hGranted.mpr ?_)
        rw [hEqual (hStores.mpr hFree)]
        exact fun i hDoor => (hOpening i).mpr (hOpen i hDoor)
  | @starts w units m hFresh _ hBurst _ =>
      have hWaits := hSlot.waiting hFresh
      rw [Timetable.portsNow_fresh hFresh] at hShows
      have hNow := hBurst.punctual hSame hSound hMemory hEntered hWaits hCycle hBeats
        (hReads hFresh) hStores hShows (e := advance
          { s.doing w with
            operands := f.operands, sources := f.sources
            remaining := p.units.beats b.instruction, stalled := false, started := true }) rfl
      have hStart : b.starts = now + 1 := by omega
      have hEnd : b.worked = now + p.units.beats b.instruction := by
        unfold Timetable.worked
        rw [hBeats]
        omega
      refine ⟨hNow.2, nofun, fun _ => ⟨hNow.1, ?_⟩, ?_⟩
      · change p.units.beats b.instruction - 1 = _
        omega
      · change (p.units.beats b.instruction - 1 == 0) = true ↔ _
        rw [beq_iff_eq]
        omega

end Pipeline

/-! What Execute needs to know is what the timetable knows. -/

/-- Every producer in front of Execute has its value, but for a load in Memory. -/
theorem Rear.forward_ready {a : Machine} {memory : Memory} {wb mem : Option Slot}
    (h : Rear a memory wb mem) {ins : Instruction} (latched : Hazard.Reading)
    (hLoads : mem.isSome = true → (a.past wb).instruction.kind = .load → ∀ entry ∈ ins.sources,
      entry.2 ≠ 0 → (a.past wb).instruction.produces ≠ entry.2) :
    (Hazard.forward ins latched mem wb).ready = true := by
  rw [Hazard.forward_ready_iff]
  intro entry hEntry hSome
  rcases Hazard.producer?_cases mem wb entry.2 with
    ⟨m, path, hIn, hReg, hProduced, hProducer⟩ | ⟨w, path, hIn, hReg, hProduced, -, hProducer⟩ |
      ⟨-, hProducer⟩
  · have hExecuted := h.executed m hIn
    have hFits := Machine.performed_fits (h.sound.past wb)
    have hProduces : (a.past wb).instruction.produces = entry.2 :=
      hExecuted.produced.symm.trans hProduced
    have hWrites : (a.past wb).instruction.writesRd = true := by
      unfold Instruction.produces at hProduces
      split at hProduces
      · assumption
      · exact absurd hProduces.symm hReg
    have hNotLoad : (a.past wb).instruction.kind ≠ .load := fun hLoad =>
      hLoads (by rw [hIn]; rfl) hLoad entry hEntry hReg hProduces
    obtain ⟨v, hValue⟩ := hFits.written hWrites hNotLoad
    rw [Hazard.forwarded?_of_producer hProducer, hExecuted.result, hValue]
    rfl
  · obtain ⟨v, hValue, -⟩ := h.written hIn hReg hProduced
    rw [Hazard.forwarded?_of_producer hProducer, hValue]
    rfl
  · rw [hProducer] at hSome
    cases hSome

namespace Back

variable {a : Machine} {p q : Pipeline} {wb mem wb' mem' : Option Slot} {s : Slot}

/-- The words that an operation reads are those that it reads on the machine, unless a store has not
reached memory yet; and there are some if there are some on the machine. -/
theorem reads (h : Back a p wb mem (some s)) (hShift : Shifted a p q wb mem wb' mem')
    (hFresh : s.started = false)
    (hReady : (Hazard.forward ((a.past wb).past mem).instruction ⟨s.operands, s.sources⟩ mem
      wb).ready = true)
    {acc : Accelerator} (hKind : ((a.past wb).past mem).instruction.kind = acc.kind) :
    (q.units.reads acc ((a.past wb).past mem).instruction
        (Hazard.forward ((a.past wb).past mem).instruction ⟨s.operands, s.sources⟩ mem
          wb).operands = [] ↔
      ((a.past wb).past mem).reads = []) ∧
    (mem.any (·.isKind .store) = false →
      q.units.reads acc ((a.past wb).past mem).instruction
        (Hazard.forward ((a.past wb).past mem).instruction ⟨s.operands, s.sources⟩ mem
          wb).operands =
        ((a.past wb).past mem).reads) := by
  have hUnits : (a.past wb).pending mem p.units = ((a.past wb).past mem).units := by
    rw [h.units]
    unfold Machine.unitsAhead
    simp [hFresh]
  have hOperands : (Hazard.forward ((a.past wb).past mem).instruction ⟨s.operands, s.sources⟩ mem
      wb).operands = ((a.past wb).past mem).operands :=
    h.rear.forward_operands (h.waiting s rfl hFresh) rfl hReady
  rw [Machine.reads_of_kind hKind, hOperands]
  constructor
  · rw [← hUnits, ← hShift.units]
    have hFit := h.shifted_fit hShift
    cases mem' with
    | none => exact Iff.rfl
    | some t =>
        rw [Machine.pending_some]
        unfold Machine.snooped
        cases ((a.past wb).past wb').store with
        | none => exact Iff.rfl
        | some st =>
            exact ⟨fun hNone => Units.reads_snoop hFit hNone st.addr, Units.reads_of_snoop hFit⟩
  · intro hFree
    rw [(hShift.clear hFree).2.1, hUnits]

/-- An instruction that has started by the end of a tick has done what the machine does. -/
theorem executed_of_started (h : Back a p wb mem (some s))
    (hShift : Shifted a p q wb mem wb' mem') {step : StageStep}
    (hMove : ExecuteMove q s ((a.past wb).past mem).instruction mem
      (Hazard.forward ((a.past wb).past mem).instruction ⟨s.operands, s.sources⟩ mem wb) step)
    (hStarted : step.slot.started = true) : step.slot.Executed ((a.past wb).past mem) := by
  rcases (h.executeMove hShift rfl hMove).2 with ⟨-, hExecuted, -⟩ | ⟨hFresh, -⟩
  · exact hExecuted
  · rw [hStarted] at hFresh
    cases hFresh

end Back

namespace Timetable

variable {b : Timetable} {mem : Option Slot} {now : Nat}

theorem mem_hazards {o : Operand} {reg : Nat} (h : (o, reg) ∈ b.instruction.sources)
    (hReg : reg ≠ 0) : b.loads reg ∈ b.hazards := by
  unfold hazards Hazard.sourceRegisters
  refine List.mem_append_left _ (List.mem_map_of_mem (List.mem_filter.mpr ⟨?_, ?_⟩))
  · exact List.mem_map.mpr ⟨(o, reg), h, rfl⟩
  · simpa using hReg

/-- A store has left Memory behind unless it is there. -/
theorem stores_past (hSound : b.Sound) (hRetired : b.writeback ≤ now)
    (hHolds : ∀ s, mem = some s → s.Holds b.machine)
    (hMemory : ∀ s, mem = some s → s.InMemory b now) :
    mem.any (·.isKind .store) = false ↔ (b.past mem).stores ≤ now + 1 := by
  have hOld := hSound.stores
  cases mem with
  | none => exact iff_of_true rfl (by rw [past_none]; omega)
  | some s =>
      have hInside := (hMemory s rfl).inside
      rw [Option.any_some, (hHolds s rfl).isKind, past_some]
      unfold next
      by_cases hStore : b.machine.instruction.kind = .store
      · have hHere : b.instruction.kind = .store := hStore
        refine iff_of_false (by simp [hStore]) ?_
        dsimp only
        rw [if_pos hHere]
        omega
      · have hHere : b.instruction.kind ≠ .store := hStore
        refine iff_of_true (by simp [hStore]) ?_
        dsimp only
        rw [if_neg hHere]
        omega

end Timetable

/-- After the tick of Execute, from the timetable `b` of its slot to that behind Writeback, `b'`. -/
structure Advanced (b b' : Timetable) (now : Nat) (m : Memory) (ex mem' ex' : Option Slot)
    (free : Bool) (control : Control) : Prop where
  same : (b'.past mem').past ex' = b.past ex
  memory : ∀ s, mem' = some s → s.InMemory b' (now + 1)
  execute : ∀ s, ex' = some s → s.InExecute (b'.past mem') (now + 1)
  free : free = true ↔ (b.past ex).memory ≤ now + 1
  shows : m.Shows b.config (b'.portsNow mem' ex') b'.buffer
  goOn : control = .goOn → ∀ s, ex = some s → s.started = false →
    b.machine.performed.1.taken = false ∧ b.machine.next.halted = false ∨
      ∃ t, ex' = some t ∧ t.started = false ∧ b'.past mem' = b
  redirect : ∀ target, control = .redirect target →
    ex.isSome = true ∧ b.machine.performed.1.taken = true ∧ b.starts = now + 1
  stop : control = .stop → ex.isSome = true ∧ b.machine.next.halted = true

/-- What an instruction that starts tells those behind it is whether it jumps or ends the run. -/
theorem Machine.controlOf_cases {a : Machine} (h : a.Sound) {s t : Slot}
    (hBefore : s.started = false) (hAfter : t.started = true) (hExecuted : t.Executed a) :
    (controlOf s t = .goOn ∧ a.performed.1.taken = false ∧ a.next.halted = false) ∨
    (∃ target, controlOf s t = .redirect target ∧ a.performed.1.taken = true) ∨
    (controlOf s t = .stop ∧ a.next.halted = true) := by
  have hFlushes := a.next_flushes
  rcases Machine.controlOf_started h hBefore hAfter hExecuted with
    ⟨hControl, -, hOpen, hNone⟩ | ⟨target, hControl, -, -, hOne⟩ | ⟨hControl, hHalted, -⟩
  · refine .inl ⟨hControl, ?_, hOpen⟩
    cases hTaken : a.performed.1.taken with
    | false => rfl
    | true =>
        rw [hTaken, if_pos rfl] at hFlushes
        omega
  · refine .inr (.inl ⟨target, hControl, ?_⟩)
    cases hTaken : a.performed.1.taken with
    | true => rfl
    | false =>
        rw [hTaken, if_neg nofun] at hFlushes
        omega
  · exact .inr (.inr ⟨hControl, hHalted⟩)

/-- What the slot in Execute has told those behind it by the end of a tick. -/
theorem Machine.controlOf_told {a : Machine} (hSound : a.Sound) {s t : Slot}
    (hExecuted : t.started = true → t.Executed a) :
    (controlOf s t = .goOn ∧
      (s.started = false → t.started = true →
        a.performed.1.taken = false ∧ a.next.halted = false)) ∨
    (s.started = false ∧ t.started = true ∧
      ((∃ target, controlOf s t = .redirect target ∧ a.performed.1.taken = true) ∨
        (controlOf s t = .stop ∧ a.next.halted = true))) := by
  cases hBefore : s.started with
  | true => exact .inl ⟨controlOf_started_before hBefore, nofun⟩
  | false =>
      cases hAfter : t.started with
      | false => exact .inl ⟨controlOf_fresh hAfter, nofun⟩
      | true =>
          rcases Machine.controlOf_cases hSound hBefore hAfter (hExecuted hAfter) with
            ⟨hGoOn, hStraight⟩ | hJump | hStop
          · exact .inl ⟨hGoOn, fun _ _ => hStraight⟩
          · exact .inr ⟨rfl, rfl, .inl hJump⟩
          · exact .inr ⟨rfl, rfl, .inr hStop⟩

/-- What the slot `t` in Execute has told those behind it by the end of its tick. -/
structure Announced (b : Timetable) (now : Nat) (s t : Slot) : Prop where
  straight : controlOf s t = .goOn → s.started = false → t.started = true →
    b.machine.performed.1.taken = false ∧ b.machine.next.halted = false
  redirect : ∀ target, controlOf s t = .redirect target →
    b.machine.performed.1.taken = true ∧ b.starts = now + 1
  stop : controlOf s t = .stop → b.machine.next.halted = true

namespace Worked

variable {b b' : Timetable} {now : Nat} {m : Memory} {mem' : Option Slot} {s t : Slot}
  {done free : Bool}

theorem announced (h : Worked b b' now m mem' t done) (hSound : b.machine.Sound)
    (hSlot : s.InExecute b now) (hExecuted : t.started = true → t.Executed b.machine) :
    Announced b now s t := by
  rcases Machine.controlOf_told (s := s) hSound hExecuted with
    ⟨hGoOn, hStraight⟩ | ⟨hBefore, hNow, hTold⟩
  · exact ⟨fun _ => hStraight, fun target hTold => (by cases hGoOn.symm.trans hTold),
      fun hTold => (by cases hGoOn.symm.trans hTold)⟩
  · have hLate := hSlot.waiting hBefore
    have hEarly := (h.running hNow).1
    rcases hTold with ⟨target, hJump, hTaken⟩ | ⟨hStop, hHalted⟩
    · exact ⟨fun hTold => (by cases hJump.symm.trans hTold), fun _ _ => ⟨hTaken, by omega⟩,
        fun hTold => (by cases hJump.symm.trans hTold)⟩
    · exact ⟨fun hTold => (by cases hStop.symm.trans hTold),
        fun target hTold => (by cases hStop.symm.trans hTold), fun _ => hHalted⟩

/-- An instruction whose work is done goes to Memory as soon as that is free. -/
theorem leaves (h : Worked b b now m none t true) (hAnnounced : Announced b now s t)
    (hSound : b.Sound) (hSlot : s.InExecute b now) (hFree : b.writeback ≤ now + 1) :
    Advanced b b now m (some s) (some t.enter) none true (controlOf s t) := by
  have hEnd := h.done.mp rfl
  have hInside := hSlot.inside
  have hWorked := b.starts_le_worked
  have hNow : t.started = true := by
    cases hIs : t.started with
    | true => rfl
    | false =>
        have hLate := h.waiting hIs
        omega
  have hArrives : b.arrives = now + 1 :=
    Nat.le_antisymm (Timetable.arrives_le_iff.mpr ⟨hEnd, hFree⟩) hInside
  have hLater := b.arrives_lt_begins
  have hLast := hSound.arrives_lt_retires
  refine ⟨rfl, ?_, ?_, iff_of_true rfl (Nat.le_of_eq hArrives), ?_, ?_, fun target hTold =>
    ⟨rfl, hAnnounced.redirect target hTold⟩, fun hTold => ⟨rfl, hAnnounced.stop hTold⟩⟩
  · intro r hIs
    obtain rfl := Option.some.inj hIs
    exact ⟨Nat.le_of_eq hArrives, by omega, fun _ => by omega, nofun⟩
  · intro r hIs
    cases hIs
  · rw [Timetable.portsNow_arrived rfl, ← Timetable.portsNow_started hNow]
    exact h.shows
  · intro hGoOn r hIs hBefore
    obtain rfl := Option.some.inj hIs
    exact .inl (hAnnounced.straight hGoOn hBefore hNow)

/-- Otherwise it stays, and is not late. -/
theorem stays (h : Worked b b' now m mem' t done) (hAnnounced : Announced b now s t)
    (hSame : b'.past mem' = b) (hMemory : ∀ s, mem' = some s → s.InMemory b' (now + 1))
    (hSlot : s.InExecute b now) (hFree : free = true ↔ b.writeback ≤ now + 1)
    (hStays : (done && free) = false) :
    Advanced b b' now m (some s) mem' (some { t with stalled := true }) false
      (controlOf s t) := by
  have hLater : now + 1 < b.arrives := by
    apply Nat.not_le.mp
    intro hEarly
    obtain ⟨hEnd, hOut⟩ := Timetable.arrives_le_iff.mp hEarly
    rw [h.done.mpr hEnd, hFree.mpr hOut] at hStays
    cases hStays
  have hEntered := hSlot.entered
  refine ⟨by rw [hSame]; rfl, hMemory, ?_, iff_of_false nofun (Nat.not_le.mpr hLater), ?_, ?_,
    fun target hTold => ⟨rfl, hAnnounced.redirect target hTold⟩,
    fun hTold => ⟨rfl, hAnnounced.stop hTold⟩⟩
  · intro r hIs
    obtain rfl := Option.some.inj hIs
    rw [hSame]
    exact ⟨Nat.le_succ_of_le hEntered, hLater, h.waiting, h.running⟩
  · have hLike := Timetable.portsNow_congr
      (show t.started = { t with stalled := true }.started from rfl) b' mem'
    rw [← hLike]
    exact h.shows
  · intro hGoOn r hIs hBefore
    obtain rfl := Option.some.inj hIs
    by_cases hNow : t.started = true
    · exact .inl (hAnnounced.straight hGoOn hBefore hNow)
    · exact .inr ⟨_, rfl, Bool.eq_false_iff.mpr hNow, hSame⟩

end Worked

namespace Punctual

variable {t : Timetable} {now : Nat} {m : Memory} {wb mem ex : Option Slot}

/-- Memory holds the instruction in front of Execute by now, or has held it. -/
theorem memory_le (h : Punctual t now m wb mem ex) : ((t.past wb).past mem).memory ≤ now := by
  cases mem with
  | none => exact Nat.le_trans (h.sound.past wb).memory h.retired
  | some s => exact (h.memory s rfl).arrived

/-- No load in Memory brings a register of the instruction in Execute. -/
theorem no_load (h : Punctual t now m wb mem ex) {s : Slot} (hSlot : ex = some s)
    (hSome : mem.isSome = true) (hLoad : (t.machine.past wb).instruction.kind = .load)
    {entry : Operand × Nat}
    (hEntry : entry ∈ ((t.machine.past wb).past mem).instruction.sources) (hReg : entry.2 ≠ 0) :
    (t.machine.past wb).instruction.produces ≠ entry.2 := by
  obtain ⟨r, rfl⟩ := Option.isSome_iff_exists.mp hSome
  have hInside := (h.memory r rfl).inside
  have hEntered := (h.execute s hSlot).entered
  rw [← Timetable.machine_past, ← Timetable.machine_past] at hEntry
  rw [← Timetable.machine_past] at hLoad ⊢
  intro hProduces
  have hHazard := (Timetable.executes_le_iff.mp hEntered).2.2 _
    (Timetable.mem_hazards hEntry hReg)
  rw [Timetable.past_some] at hHazard
  unfold Timetable.next at hHazard
  dsimp only at hHazard
  rw [if_pos ⟨hLoad, hProduces⟩] at hHazard
  omega

end Punctual

/-- A tick of Execute keeps to the timetable. -/
theorem Pipeline.ExecuteRound.punctual {t : Timetable} {p : Pipeline} {m m' : Making} {cur : Slots}
    {ex : Option Slot} {free free' : Bool} {control : Control} {now : Nat}
    (hBack : Back t.machine p cur.writeback cur.memory ex)
    (hShift : Shifted t.machine p m.pipeline cur.writeback cur.memory m.next.writeback
      m.next.memory)
    (hFree : free = m.next.memory.isNone ∧ m.next.execute = none ∧ m.next.decode = none ∧
      m.next.fetch = none)
    (hPunctual : Punctual t now p.memory cur.writeback cur.memory ex)
    (hCleared : Cleared (t.past cur.writeback) now m.pipeline.memory cur.memory ex
      m.next.writeback m.next.memory free)
    (hCycle : m.pipeline.cycle = now)
    (h : ExecuteRound m ((t.machine.past cur.writeback).past cur.memory).instruction cur free ex m'
      free' control) :
    Advanced ((t.past cur.writeback).past cur.memory)
      ((t.past cur.writeback).past m.next.writeback) now m'.pipeline.memory ex m'.next.memory
      m'.next.execute free' control := by
  have hMachine : ((t.past cur.writeback).past cur.memory).machine =
      (t.machine.past cur.writeback).past cur.memory := by
    rw [Timetable.machine_past, Timetable.machine_past]
  have hSound := (hPunctual.sound.past cur.writeback).past m.next.writeback
  have hSame := hCleared.same
  have hMemory := hCleared.memory
  have hRoom := hCleared.free
  have hShows := hCleared.shows
  rw [← Timetable.config_past (t.past cur.writeback) cur.memory] at hShows
  cases h with
  | empty =>
      rw [hFree.2.1]
      refine ⟨hSame, hMemory, ?_, iff_of_true rfl (Nat.le_succ_of_le hPunctual.memory_le), hShows,
        ?_, ?_, ?_⟩
      · intro s hSlot
        cases hSlot
      · intro _ s hSlot
        cases hSlot
      · intro target hTold
        cases hTold
      · intro hTold
        cases hTold
  | @moves s step hMove =>
      have hSlot := hPunctual.execute s rfl
      have hReady := hBack.rear.forward_ready ⟨s.operands, s.sources⟩
        fun hSome hLoad entry hEntry hReg => hPunctual.no_load rfl hSome hLoad hEntry hReg
      have hExecuted := fun hStarted => hBack.executed_of_started hShift hMove hStarted
      have hReads := fun (hFresh : s.started = false) (acc : Accelerator) hKind =>
        hBack.reads hShift hFresh hReady (show _ = acc.kind from hKind)
      have hSoundHere := (hBack.rear.sound.past cur.writeback).past cur.memory
      have hFrame : m.pipeline.units.frame =
          ((t.machine.past cur.writeback).past cur.memory).units.frame := by
        rw [hBack.shifted_frame hShift, Machine.past_frame (hBack.rear.sound.past cur.writeback),
          Machine.past_frame hBack.rear.sound]
      have hStores := Timetable.stores_past (hPunctual.sound.past cur.writeback) hPunctual.retired
        (fun r hIs => by
          rw [Timetable.machine_past]
          exact (hBack.rear.executed r hIs).toHolds) hPunctual.memory
      rw [← hMachine] at hMove hReady hReads hExecuted hSoundHere hFrame
      have hWorked := hMove.punctual hSame hSound hMemory hSlot hCycle
        (Units.beats_eq_of_frame hFrame _) (fun _ => hReady) hReads hStores hShows
      have hAnnounced := hWorked.announced hSoundHere hSlot hExecuted
      cases hLeaves : (step.done && free) with
      | true =>
          obtain ⟨hDone, hOut⟩ := Bool.and_eq_true_iff.mp hLeaves
          have hNone : m.next.memory = none := by
            rw [hFree.1] at hOut
            exact Option.isNone_iff_eq_none.mp hOut
          rw [hNone, Timetable.past_none] at hSame
          rw [hNone, hSame, hDone] at hWorked
          rw [if_pos rfl, hSame]
          dsimp only
          rw [hFree.2.1]
          exact hWorked.leaves hAnnounced (hSame ▸ hSound) hSlot (hRoom.mp hOut)
      | false =>
          rw [if_neg nofun]
          exact hWorked.stays hAnnounced hSame hMemory hSlot hRoom hLeaves

end AccelPipe

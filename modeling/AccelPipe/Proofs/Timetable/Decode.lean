import AccelPipe.Proofs.Timetable.Stages

/-! Decode on time. An instruction leaves Decode as soon as its registers have been loaded, its unit
is free and Execute takes it, and it is the instruction of the timetable as long as nothing in
Execute says that the run goes on elsewhere. -/
namespace AccelPipe

open Pipeline

namespace Hazard

variable {a : Machine} {slot : Option Slot}

theorem loadsOneOf_of_holds (h : ∀ s, slot = some s → s.Holds a) (registers : List Nat) :
    loadsOneOf registers slot = .ok (slot.isSome && (a.instruction.kind == .load &&
      registers.contains a.instruction.produces)) := by
  cases slot with
  | none => rfl
  | some s => exact loadsOneOf_of_ins (h s rfl).ins registers

theorem holds_of_holds (h : ∀ s, slot = some s → s.Holds a) (k : Kind) :
    holds k slot = .ok (slot.isSome && a.instruction.kind == k) := by
  cases slot with
  | none => rfl
  | some s => exact holds_of_ins (h s rfl).ins k

variable {a' : Machine} {ex mem : Option Slot}

theorem waitsForLoad_of_holds (hEx : ∀ s, ex = some s → s.Holds a')
    (hMem : ∀ s, mem = some s → s.Holds a) (ins : Instruction) (memoryFree : Bool) :
    waitsForLoad ins ex mem memoryFree =
      .ok (ex.isSome && (a'.instruction.kind == .load &&
          (sourceRegisters ins).contains a'.instruction.produces) ||
        mem.isSome && (a.instruction.kind == .load &&
          (sourceRegisters ins).contains a.instruction.produces) && !memoryFree) := by
  unfold waitsForLoad
  dsimp only
  rw [loadsOneOf_of_holds hEx, loadsOneOf_of_holds hMem]
  cases hRegisters : sourceRegisters ins with
  | nil => simp [Pure.pure, Except.pure]
  | cons reg registers =>
      cases ex.isSome && (a'.instruction.kind == .load &&
        (reg :: registers).contains a'.instruction.produces) <;> rfl

theorem waitsForUnit_of_holds (hEx : ∀ s, ex = some s → s.Holds a')
    (hMem : ∀ s, mem = some s → s.Holds a) (blocking : List Kind) (ins : Instruction) :
    waitsForUnit blocking ins ex mem =
      .ok (blocking.contains ins.kind && (ex.isSome && a'.instruction.kind == ins.kind ||
        mem.isSome && a.instruction.kind == ins.kind)) := by
  unfold waitsForUnit
  rw [holds_of_holds hEx, holds_of_holds hMem]
  cases blocking.contains ins.kind <;>
    cases ex.isSome && a'.instruction.kind == ins.kind <;> rfl

/-- Nothing holds an instruction up in Decode if no load brings one of its registers and no one else
has its unit. -/
theorem decodeStall_none_iff (hEx : ∀ s, ex = some s → s.Holds a')
    (hMem : ∀ s, mem = some s → s.Holds a) (blocking : List Kind) (ins : Instruction)
    (memoryFree : Bool) :
    decodeStall blocking ins ex mem memoryFree = .ok none ↔
      (∀ reg ∈ sourceRegisters ins,
        ¬(ex.isSome = true ∧ a'.instruction.kind = .load ∧ a'.instruction.produces = reg) ∧
        (mem.isSome = true ∧ a.instruction.kind = .load ∧ a.instruction.produces = reg →
          memoryFree = true)) ∧
      (blocking.contains ins.kind = true →
        ¬(ex.isSome = true ∧ a'.instruction.kind = ins.kind) ∧
        ¬(mem.isSome = true ∧ a.instruction.kind = ins.kind)) := by
  have hBoth : ∀ load unit : Bool,
      ((do
        if ← (Except.ok load : Except Failure Bool) then return some StallCause.loadUse
        if ← (Except.ok unit : Except Failure Bool) then return some StallCause.unitBusy
        return none) = (Except.ok none : Except Failure (Option StallCause))) ↔
        load = false ∧ unit = false := by
    intro load unit
    cases load <;> cases unit <;> simp [Bind.bind, Except.bind, Pure.pure, Except.pure]
  unfold decodeStall
  rw [waitsForLoad_of_holds hEx hMem, waitsForUnit_of_holds hEx hMem, hBoth]
  refine and_congr ?_ ?_
  · grind
  · cases blocking.contains ins.kind <;> grind

end Hazard

namespace Timetable

variable {b : Timetable} {mem ex : Option Slot} {now : Nat}

/-- The registers that a slot in Execute loads come too late. -/
theorem loads_past_execute (hSound : b.Sound)
    (hExecute : ∀ s, ex = some s → s.InExecute b now) (reg : Nat) :
    (b.past ex).loads reg ≤ now + 1 ↔
      ¬(ex.isSome = true ∧ b.instruction.kind = .load ∧ b.instruction.produces = reg) ∧
        b.loads reg ≤ now + 1 := by
  cases ex with
  | none => simp
  | some s =>
      have hInside := (hExecute s rfl).inside
      have hLater := hSound.arrives_lt_retires
      dsimp only [past_some, next, Option.isSome_some]
      split <;> simp_all
      omega

/-- The register that a slot in Memory loads comes in time if the slot leaves. -/
theorem loads_past_memory {free : Bool} (hSound : b.Sound) (hRetired : b.writeback ≤ now)
    (hFree : free = true ↔ (b.past mem).writeback ≤ now + 1) (reg : Nat) :
    (b.past mem).loads reg ≤ now + 1 ↔
      (mem.isSome = true ∧ b.instruction.kind = .load ∧ b.instruction.produces = reg →
        free = true) := by
  have hOld := hSound.loads reg
  cases mem with
  | none =>
      refine iff_of_true (by rw [past_none]; omega) ?_
      rintro ⟨hIs, -⟩
      cases hIs
  | some s =>
      rw [hFree]
      dsimp only [past_some, next]
      split
      · rename_i hLoad
        exact ⟨fun hEarly _ => hEarly, fun hEarly => hEarly ⟨rfl, hLoad⟩⟩
      · rename_i hLoad
        exact iff_of_true (by omega) fun hBoth => absurd hBoth.2 hLoad

/-- The unit of a slot in Execute is free too late. -/
theorem units_past_execute (hSound : b.Sound)
    (hExecute : ∀ s, ex = some s → s.InExecute b now) (kind : Kind) :
    (b.past ex).units kind ≤ now + 1 ↔
      ¬(ex.isSome = true ∧ b.instruction.kind = kind) ∧ b.units kind ≤ now + 1 := by
  cases ex with
  | none => simp
  | some s =>
      have hInside := (hExecute s rfl).inside
      have hLater := hSound.arrives_lt_retires
      dsimp only [past_some, next, Option.isSome_some]
      split <;> simp_all
      omega

theorem units_past_memory (hSound : b.Sound) (hRetired : b.writeback ≤ now)
    (hMemory : ∀ s, mem = some s → s.InMemory b now) (kind : Kind) :
    (b.past mem).units kind ≤ now + 1 ↔ ¬(mem.isSome = true ∧ b.instruction.kind = kind) := by
  have hOld := hSound.units kind
  cases mem with
  | none =>
      refine iff_of_true (by rw [past_none]; omega) ?_
      rintro ⟨hIs, -⟩
      cases hIs
  | some s =>
      have hInside := (hMemory s rfl).inside
      dsimp only [past_some, next]
      split
      · rename_i hKind
        exact iff_of_false (by omega) fun hNot => hNot ⟨rfl, hKind⟩
      · rename_i hKind
        exact iff_of_true (by omega) fun hBoth => hKind hBoth.2

/-- Decode gets the instruction behind one that does not jump as soon as that one has left. -/
theorem decode_next_of_straight (h : b.machine.performed.1.taken = false) :
    b.next.decode = b.executes := if_neg (by rw [h]; nofun)

theorem decode_next_of_taken (h : b.machine.performed.1.taken = true) :
    b.next.decode = b.starts + 1 := if_pos h

theorem hazards_le_iff {cycle : Nat} :
    (∀ t ∈ b.hazards, t ≤ cycle) ↔
      (∀ reg ∈ Hazard.sourceRegisters b.instruction, b.loads reg ≤ cycle) ∧
        (((Accelerator.all.filter Accelerator.blocking).map Accelerator.kind).contains
            b.instruction.kind = true → b.units b.instruction.kind ≤ cycle) := by
  unfold hazards
  rw [List.forall_mem_append, List.forall_mem_map]
  refine and_congr_right' ?_
  split
  · rename_i hBlocking
    rw [List.forall_mem_singleton]
    exact ⟨fun hEarly _ => hEarly, fun hEarly => hEarly hBlocking⟩
  · rename_i hFree
    exact iff_of_true (fun _ hNone => nomatch hNone) fun hBlocking => absurd hBlocking hFree

end Timetable

/-- What keeps an instruction in Decode is what the timetable knows to keep it there. -/
theorem decodeReason_none_iff {b : Timetable} {cur : Slots} {s : Slot} {free : Bool} {now : Nat}
    (hSound : b.Sound) (hRetired : b.writeback ≤ now)
    (hMemory : ∀ s, cur.memory = some s → s.InMemory b now)
    (hExecute : ∀ s, cur.execute = some s → s.InExecute (b.past cur.memory) now)
    (hHoldsMem : ∀ s, cur.memory = some s → s.Holds b.machine)
    (hHoldsEx : ∀ s, cur.execute = some s → s.Holds (b.past cur.memory).machine)
    (hFree : free = true ↔ (b.past cur.memory).writeback ≤ now + 1)
    (hIns : s.ins.getD (Instruction.decode s.word) =
      ((b.past cur.memory).past cur.execute).instruction) :
    decodeReason cur free s = .ok none ↔
      ∀ t ∈ ((b.past cur.memory).past cur.execute).hazards, t ≤ now + 1 := by
  have hSoundEx := hSound.past cur.memory
  unfold decodeReason
  rw [Hazard.decodeStall_none_iff hHoldsEx hHoldsMem, Timetable.hazards_le_iff, hIns]
  refine and_congr (forall₂_congr fun reg _ => ?_) (imp_congr_right fun _ => ?_)
  · rw [Timetable.loads_past_execute hSoundEx hExecute,
      Timetable.loads_past_memory hSound hRetired hFree]
    rfl
  · rw [Timetable.units_past_execute hSoundEx hExecute,
      Timetable.units_past_memory hSound hRetired hMemory]
    rfl

/-! Decode holds the next instruction unless Execute says otherwise. -/

/-- The run goes on behind Execute, with the instruction that Decode takes for the next one. -/
structure Machine.OnPath (a : Machine) (ex : Option Slot) : Prop where
  halted : (a.past ex).halted = false
  straight : ∀ s, ex = some s → s.started = false → a.performed.1.taken = false

namespace Machine.OnPath

variable {a : Machine} {ex : Option Slot}

theorem behind (h : a.OnPath ex) : a.behind ex = (a.past ex).pc := by
  cases ex with
  | none => rfl
  | some s =>
      cases hStarted : s.started with
      | true => exact a.behind_started hStarted
      | false =>
          rw [a.behind_fresh hStarted, Machine.past_some, Machine.next_pc,
            h.straight s rfl hStarted]
          rfl

theorem ahead (h : a.OnPath ex) (hHolds : ∀ s, ex = some s → s.started = false → s.Holds a) :
    (a.ahead ex).halted = false := by
  cases ex with
  | none => exact h.halted
  | some s =>
      cases hStarted : s.started with
      | true =>
          rw [a.ahead_started hStarted]
          exact h.halted
      | false =>
          rw [a.ahead_fresh hStarted]
          exact (hHolds s rfl hStarted).running

end Machine.OnPath

namespace Follows

variable {a : Machine} {q : Pipeline} {registers : Registers} {slots : Slots}

/-- On its path a run still fetches. -/
theorem live_of_onPath (h : Follows a q registers slots)
    (hPath : ((a.past slots.writeback).past slots.memory).OnPath slots.execute) :
    q.fetchStopped = false ∧ slots.fetch.isSome = true := by
  have hStopped := h.stopped.trans
    (hPath.ahead fun s hSlot hFresh => (h.back.waiting s hSlot hFresh).toHolds)
  have hLive := h.front.live
  rw [hStopped] at hLive
  exact ⟨hStopped, hLive⟩

/-- On its path a run holds the next instruction in Decode. -/
theorem instruction_of_onPath (h : Follows a q registers slots)
    (hPath : ((a.past slots.writeback).past slots.memory).OnPath slots.execute) {s : Slot}
    (hSlot : slots.decode = some s) :
    s.ins.getD (Instruction.decode s.word) =
      (((a.past slots.writeback).past slots.memory).past slots.execute).instruction := by
  obtain ⟨-, hIns, -⟩ := h.front.decode s hSlot
  rw [hIns, hPath.behind, h.program]
  unfold Machine.instruction
  rw [Machine.past_program _ slots.execute, Machine.past_program _ slots.memory,
    Machine.past_program _ slots.writeback]

end Follows

/-- Decode keeps to a timetable, as long as the run goes on as Decode takes it to. -/
structure Timely (b : Timetable) (now : Nat) (ex id : Option Slot) : Prop where
  waiting : b.machine.OnPath ex → id.isSome = true →
    (b.past ex).decode ≤ now ∧ now < (b.past ex).executes
  empty : b.machine.OnPath ex → id = none → (b.past ex).decode = now + 1

/-- After the tick of Decode, before Fetch. -/
structure Decided (b : Timetable) (now : Nat) (ex id : Option Slot) (free : Bool)
    (control : Control) : Prop where
  waiting : b.machine.OnPath ex → id.isSome = true →
    (b.past ex).decode ≤ now + 1 ∧ now + 1 < (b.past ex).executes
  straight : b.machine.OnPath ex → control = .goOn → id = none →
    free = true ∧ (b.past ex).decode = now + 1
  turned : b.machine.OnPath ex → control ≠ .goOn → id = none ∧ (b.past ex).decode = now + 2

/-- Fetch fills Decode if nothing has been said against it. -/
theorem Decided.timely {b : Timetable} {now : Nat} {ex id id' : Option Slot} {free : Bool}
    {control : Control} (h : Decided b now ex id free control) (fetches : Bool)
    (hSome : id'.isSome = (id.isSome || (control == .goOn && fetches && free)))
    (hFetches : b.machine.OnPath ex → control = .goOn → fetches = true) :
    Timely b (now + 1) ex id' := by
  constructor
  · intro hPath hIs
    rw [hSome] at hIs
    cases hHeld : id.isSome with
    | true => exact h.waiting hPath hHeld
    | false =>
        rw [hHeld] at hIs
        have hGoOn : control = .goOn := by
          cases control with
          | goOn => rfl
          | redirect target => cases hIs
          | stop => cases hIs
        have hLater := (b.past ex).decode_lt_executes
        obtain ⟨-, hDecode⟩ :=
          h.straight hPath hGoOn (Option.not_isSome_iff_eq_none.mp (Bool.eq_false_iff.mp hHeld))
        omega
  · intro hPath hNone
    rw [hNone] at hSome
    by_cases hGoOn : control = .goOn
    · have hEmpty : id = none := by
        cases id with
        | none => rfl
        | some s => cases hSome
      obtain ⟨hFree, -⟩ := h.straight hPath hGoOn hEmpty
      rw [hFree, hFetches hPath hGoOn, hGoOn, hEmpty] at hSome
      cases hSome
    · exact (h.turned hPath hGoOn).2

/-- An instruction comes to Execute in time. -/
theorem Slot.InExecute.entering {b : Timetable} {s : Slot} {now : Nat} (h : b.executes = now)
    (hFresh : s.started = false) : s.InExecute b now := by
  have hStarts := b.executes_lt_starts
  have hArrives := b.starts_le_arrives
  refine ⟨Nat.le_of_eq h, by omega, fun _ => by omega, fun hStarted => ?_⟩
  rw [hFresh] at hStarted
  cases hStarted

namespace Advanced

variable {b b' : Timetable} {now : Nat} {m : Memory} {ex mem' ex' : Option Slot} {free : Bool}
  {control : Control}

/-- Who is on the path after Execute has been there before. -/
theorem onPath (h : Advanced b b' now m ex mem' ex' free control) (hControl : control = .goOn)
    (hPath : (b'.past mem').machine.OnPath ex') : b.machine.OnPath ex := by
  have hHalted := hPath.halted
  rw [← Timetable.machine_past, h.same, Timetable.machine_past] at hHalted
  refine ⟨hHalted, fun s hSlot hFresh => ?_⟩
  rcases h.goOn hControl s hSlot hFresh with ⟨hStraight, -⟩ | ⟨t, hStays, hStill, hSame⟩
  · exact hStraight
  · rw [← hSame]
    exact hPath.straight t hStays hStill

/-- Who has left Execute with nothing to say stays on the path. -/
theorem onPath_of_left (h : Advanced b b' now m ex mem' none free control)
    (hControl : control = .goOn) (hOpen : (b.past ex).machine.halted = false) :
    b.machine.OnPath ex := by
  rw [Timetable.machine_past] at hOpen
  refine ⟨hOpen, fun s hSlot hFresh => ?_⟩
  rcases h.goOn hControl s hSlot hFresh with ⟨hStraight, -⟩ | ⟨t, hStays, -⟩
  · exact hStraight
  · cases hStays

/-- If the run goes on after all, it does so at the target of a jump, which Fetch has to fetch. -/
theorem decode_of_turned (h : Advanced b b' now m ex mem' ex' free control)
    (hControl : control ≠ .goOn) (hPath : (b'.past mem').machine.OnPath ex') :
    (b.past ex).decode = now + 2 := by
  cases control with
  | goOn => exact absurd rfl hControl
  | redirect target =>
      obtain ⟨hSome, hTaken, hStarts⟩ := h.redirect target rfl
      obtain ⟨s, rfl⟩ := Option.isSome_iff_exists.mp hSome
      rw [Timetable.past_some, Timetable.decode_next_of_taken hTaken, hStarts]
  | stop =>
      obtain ⟨hSome, hHalted⟩ := h.stop rfl
      obtain ⟨s, rfl⟩ := Option.isSome_iff_exists.mp hSome
      have hRuns := hPath.halted
      rw [← Timetable.machine_past, h.same] at hRuns
      cases hHalted.symm.trans hRuns

end Advanced

/-- A tick of Decode keeps to the timetable. -/
theorem Pipeline.DecodeRound.punctual {b b' : Timetable} {now : Nat} {m m' : Making} {cur : Slots}
    {ex id : Option Slot} {free₁ free₂ free₃ : Bool} {control : Control}
    (h : DecodeRound m cur free₁ free₂ control id m' free₃)
    (hAdvanced : Advanced b b' now m.pipeline.memory ex m.next.memory m.next.execute free₂ control)
    (hFree : free₂ = m.next.execute.isNone) (hNoDecode : m.next.decode = none)
    (hTimely : Timely b now ex id)
    (hOpen : id.isSome = true → control = .goOn → m.next.execute = none →
      (b.past ex).machine.halted = false)
    (hReason : b.machine.OnPath ex → ∀ s, id = some s →
      (decodeReason cur free₁ s = .ok none ↔ ∀ t ∈ (b.past ex).hazards, t ≤ now + 1)) :
    (∀ s, m'.next.execute = some s → s.InExecute (b'.past m.next.memory) (now + 1)) ∧
      m'.pipeline.memory.Shows b.config (b'.portsNow m.next.memory m'.next.execute) b'.buffer ∧
      ((b'.past m.next.memory).machine.OnPath m'.next.execute → control = .goOn →
        b.machine.OnPath ex) ∧
      Decided (b'.past m.next.memory) now m'.next.execute m'.next.decode free₃ control := by
  have hSame := hAdvanced.same
  cases h with
  | empty =>
      refine ⟨hAdvanced.execute, hAdvanced.shows, fun hPath _ => hAdvanced.onPath rfl hPath, ?_, ?_,
        fun _ hNot => absurd rfl hNot⟩
      · rw [hNoDecode]
        intro _ hIs
        cases hIs
      · intro hPath _ _
        rw [hSame]
        exact ⟨rfl, hTimely.empty (hAdvanced.onPath rfl hPath) rfl⟩
  | @moves s hExecuteFree hNoReason =>
      have hNone : m.next.execute = none := by
        rw [hExecuteFree] at hFree
        exact Option.isNone_iff_eq_none.mp hFree.symm
      rw [hNone] at hAdvanced hSame
      have hPath := hAdvanced.onPath_of_left rfl (hOpen rfl rfl hNone)
      obtain ⟨hDecoded, hWaits⟩ := hTimely.waiting hPath rfl
      have hEnters : (b.past ex).executes = now + 1 :=
        Nat.le_antisymm (Timetable.executes_le_iff.mpr
          ⟨Nat.lt_succ_of_le hDecoded, hAdvanced.free.mp hExecuteFree,
            (hReason hPath s rfl).mp hNoReason⟩) hWaits
      rw [Timetable.past_none] at hSame
      refine ⟨?_, ?_, fun _ _ => hPath, ?_, ?_, fun _ hNot => absurd rfl hNot⟩
      · intro t hSlot
        obtain rfl := Option.some.inj hSlot
        rw [hSame]
        exact .entering hEnters rfl
      · rw [Timetable.portsNow_fresh rfl]
        exact hAdvanced.shows
      · intro _ hIs
        rw [show m.next.decode = none from hNoDecode] at hIs
        cases hIs
      · intro hStill _ _
        rw [hSame] at hStill ⊢
        exact ⟨rfl, (Timetable.decode_next_of_straight (hStill.straight _ rfl rfl)).trans hEnters⟩
  | @waits s reason hIsReason hStays =>
      refine ⟨hAdvanced.execute, hAdvanced.shows, fun hPath _ => hAdvanced.onPath rfl hPath, ?_,
        nofun, fun _ hNot => absurd rfl hNot⟩
      intro hStill _
      have hPath := hAdvanced.onPath rfl hStill
      obtain ⟨hDecoded, -⟩ := hTimely.waiting hPath rfl
      dsimp only
      rw [hSame]
      refine ⟨Nat.le_succ_of_le hDecoded, Nat.not_le.mp fun hEarly => ?_⟩
      obtain ⟨-, hRoom, hHazards⟩ := Timetable.executes_le_iff.mp hEarly
      have hNoReason := (hReason hPath s rfl).mpr hHazards
      obtain rfl := Except.ok.inj (hIsReason.symm.trans hNoReason)
      rw [hAdvanced.free.mpr hRoom] at hStays
      cases hStays
  | flushed hControl =>
      refine ⟨hAdvanced.execute, hAdvanced.shows, fun _ hGoOn => absurd hGoOn hControl, ?_,
        fun _ hGoOn => absurd hGoOn hControl, ?_⟩
      · intro _ hIs
        rw [show m.next.decode = none from hNoDecode] at hIs
        cases hIs
      · intro hPath _
        exact ⟨hNoDecode, hSame ▸ hAdvanced.decode_of_turned hControl hPath⟩

end AccelPipe

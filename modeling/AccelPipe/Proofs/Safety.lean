import AccelPipe.Proofs.Pipeline.Logs
import AccelPipe.Proofs.Simulator.Ticks

/-! Nothing goes wrong inside a run. Every stage finds in its slot what the stages before it have to
leave there, every instruction that can be decoded is known to whoever executes or checks it, and so
no tick fails. -/
namespace AccelPipe

open Pipeline

/-- What the stages rely on when they look at the slots, and the counters at their keys. -/
structure Pipeline.Furnished (p : Pipeline) : Prop where
  decoded : ∀ s, p.slots.execute = some s ∨ p.slots.memory = some s ∨ p.slots.writeback = some s →
    s.ins.isSome = true
  address : ∀ s ins, p.slots.memory = some s ∨ p.slots.writeback = some s → s.ins = some ins →
    ins.kind = .load ∨ ins.kind = .store → s.memAddr.isSome = true
  value : ∀ s ins, p.slots.memory = some s ∨ p.slots.writeback = some s → s.ins = some ins →
    ins.kind = .store → s.storeValue.isSome = true
  result : ∀ s ins, p.slots.writeback = some s → s.ins = some ins → ins.writesRd = true →
    s.result.isSome = true
  points : ∀ hit ∈ p.coverage.log, ∃ point, CoveragePoint.ofName hit.1 = .ok point
  forwards : p.forwards.map (·.1) = ForwardPath.all

/-- A slot that has been executed is furnished for Memory. -/
theorem Slot.Executed.furnished {a : Machine} {s : Slot} (h : s.Executed a) (hSound : a.Sound)
    {ins : Instruction} (hIns : s.ins = some ins) :
    (ins.kind = .load ∨ ins.kind = .store → s.memAddr.isSome = true) ∧
      (ins.kind = .store → s.storeValue.isSome = true) := by
  obtain rfl : a.instruction = ins := Option.some.inj (h.ins.symm.trans hIns)
  have hFits := Machine.performed_fits hSound
  have hAddr : s.memAddr = a.performed.1.memAddr := congrArg Work.memAddr h.work
  have hValue : s.storeValue = a.performed.1.storeValue := congrArg Work.storeValue h.work
  rw [hAddr, hValue]
  exact ⟨fun hKind => Option.isSome_iff_exists.mpr (hFits.address hKind),
    fun hKind => Option.isSome_iff_exists.mpr (hFits.value hKind)⟩

/-- A slot that has been finished is furnished for Writeback. -/
theorem Slot.Finished.furnished {a : Machine} {s : Slot} (h : s.Finished a) (hSound : a.Sound)
    {ins : Instruction} (hIns : s.ins = some ins) :
    (ins.kind = .load ∨ ins.kind = .store → s.memAddr.isSome = true) ∧
      (ins.kind = .store → s.storeValue.isSome = true) ∧
      (ins.writesRd = true → s.result.isSome = true) := by
  obtain rfl : a.instruction = ins := Option.some.inj (h.ins.symm.trans hIns)
  have hFits := Machine.performed_fits hSound
  have hResult : s.result = a.finished.result := congrArg Work.result h.work
  have hAddr : s.memAddr = a.finished.memAddr := congrArg Work.memAddr h.work
  have hValue : s.storeValue = a.finished.storeValue := congrArg Work.storeValue h.work
  rw [Machine.finished_rest] at hAddr hValue
  rw [hResult, hAddr, hValue]
  exact ⟨fun hKind => Option.isSome_iff_exists.mpr (hFits.address hKind),
    fun hKind => Option.isSome_iff_exists.mpr (hFits.value hKind),
    fun hWrites => Option.isSome_iff_exists.mpr (Machine.finished_written hSound hWrites)⟩

/-- The counters are kept by names that the tables know. -/
structure Pipeline.Named (p : Pipeline) : Prop where
  points : p.coverage.Known
  forwards : p.forwards.map (·.1) = ForwardPath.all

/-- A pipeline that follows a machine has well-formed slots. -/
theorem Follows.furnished {a : Machine} {p : Pipeline} (h : Follows a p p.registers p.slots)
    (hNamed : p.Named) : p.Furnished := by
  have hSound := h.back.rear.sound
  have hNext := hSound.past p.slots.writeback
  refine ⟨?_, ?_, ?_, ?_, hNamed.points, hNamed.forwards⟩
  · rintro s (hSlot | hSlot | hSlot)
    · exact Option.isSome_iff_exists.mpr ⟨_, (h.execute_ready s hSlot).1⟩
    · exact Option.isSome_iff_exists.mpr ⟨_, (h.back.rear.executed s hSlot).ins⟩
    · exact Option.isSome_iff_exists.mpr ⟨_, (h.back.rear.writeback s hSlot).ins⟩
  · rintro s ins (hSlot | hSlot) hIns
    · exact ((h.back.rear.executed s hSlot).furnished hNext hIns).1
    · exact ((h.back.rear.writeback s hSlot).furnished hSound hIns).1
  · rintro s ins (hSlot | hSlot) hIns
    · exact ((h.back.rear.executed s hSlot).furnished hNext hIns).2
    · exact ((h.back.rear.writeback s hSlot).furnished hSound hIns).2.1
  · intro s ins hSlot hIns
    exact ((h.back.rear.writeback s hSlot).furnished hSound hIns).2.2

/-- A tick covers only points that have a name. -/
theorem Pipeline.Named.tick {a : Machine} {p : Pipeline} (h : p.Named) (hStanding : Standing a p)
    (hRun : p.status.finished = false) : p.tick.2.Named := by
  obtain ⟨m, commit, hCounts⟩ := hStanding.counts hRun
  refine ⟨hCounts.counted.known (hCounts.reported.known h.points), ?_⟩
  rw [hCounts.counted.forwards, hCounts.staged.forwards]
  exact Hazard.Counters.keys_note h.forwards _

namespace Simulator

variable {c : Config} {program : Image} {data : List (Int × List Int)} {k : Nat}

/-- All that ticks cover has a name. -/
theorem ticks_named (hValid : c.Valid) (k : Nat) :
    ((loaded c program data).ticks k).pipeline.Named := by
  refine ticks_keep hValid ?_ (fun _ hStanding hRun h => h.tick hStanding hRun)
    (fun _ _ h => ⟨h.points, h.forwards⟩) (fun _ _ h => ⟨h.points, h.forwards⟩) k
  rw [build_eq]
  exact ⟨fun hit hHeld => absurd hHeld List.not_mem_nil, rfl⟩

/-- As long as a run has not finished, each stage is given what it needs, and the next tick does
not fail: it does not come to an operation, a branch, a unit or a table that does not know its
instruction. -/
theorem ticks_safe (hValid : c.Valid) (hSize : program.size < 0x40000000)
    (hExact : c.checkReference = true → (c.reference program data).Exact (k + 1))
    (hRun : ((loaded c program data).ticks k).status.finished = false) :
    ((loaded c program data).ticks k).pipeline.Furnished ∧
      ∃ t, ((loaded c program data).ticks k).tick = (.ok (), t) := by
  have hFollows := ((ticks_standing hValid k).live hRun).2
  exact ⟨hFollows.furnished (ticks_named hValid k), ticks_goesOn hValid hSize hExact hRun⟩

/-- The store of a word is in Memory, between the sum before it and the load after it. -/
theorem ticks_safe_of_load_use :
    ((loaded Config.small #[0x00500093, 0x00102023, 0x00002103, 0x00210133, 0x73] []).ticks
        4).pipeline.slots.memory.map (·.storeValue) = some (some 5) ∧
      ((loaded Config.small #[0x00500093, 0x00102023, 0x00002103, 0x00210133, 0x73] []).ticks
        4).pipeline.Furnished ∧
      ∃ t, ((loaded Config.small #[0x00500093, 0x00102023, 0x00002103, 0x00210133, 0x73]
        []).ticks 4).tick = (.ok (), t) :=
  ⟨by decide +kernel, ticks_safe Config.valid_small (by decide)
    (fun _ => Config.valid_small.exact _ _ (by decide)) (by decide +kernel)⟩

end Simulator

end AccelPipe

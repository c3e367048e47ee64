import AccelPipe.Proofs.Pipeline.Standing
import AccelPipe.Proofs.Timetable.Stages

/-! Execute never waits for a load. An instruction leaves Decode only when no load of one of its
registers is in Execute, and none will still be in Memory; so whatever holds up the loads on their
way, no load in Memory brings a register of an instruction that has yet to start in Execute. -/
namespace AccelPipe

open Pipeline

namespace Hazard

variable {ins loaded : Instruction} {ex mem : Option Slot} {s : Slot}

theorem not_loads_of_loadsOneOf {registers : List Nat}
    (h : loadsOneOf registers (some s) = .ok false) (hIns : s.ins = some loaded)
    (hLoad : loaded.kind = .load) : loaded.produces ∉ registers := by
  have hNot := Except.ok.inj ((loadsOneOf_of_ins hIns registers).symm.trans h)
  rw [hLoad] at hNot
  simpa using hNot

/-- What leaves Decode reads no register that a load in Execute brings, nor one that a load brings
which stays in Memory. -/
theorem not_loads_of_decodeStall {blocking : List Kind} {memoryFree : Bool}
    (h : decodeStall blocking ins ex mem memoryFree = .ok none) :
    (∀ s loaded, ex = some s → s.ins = some loaded → loaded.kind = .load →
      loaded.produces ∉ sourceRegisters ins) ∧
    (memoryFree = false → ∀ s loaded, mem = some s → s.ins = some loaded → loaded.kind = .load →
      loaded.produces ∉ sourceRegisters ins) := by
  obtain ⟨hFree, -⟩ := (decodeStall_cases h).resolve_left nofun
  unfold waitsForLoad at hFree
  dsimp only at hFree
  cases hRegisters : sourceRegisters ins with
  | nil => simp
  | cons reg registers =>
      rw [hRegisters] at hFree
      obtain ⟨here, hExecute, hFree⟩ := bind_ok hFree
      cases here with
      | true => cases hFree
      | false =>
          rw [if_neg nofun] at hFree
          obtain ⟨there, hMemory, hRest⟩ := bind_ok hFree
          refine ⟨?_, ?_⟩
          · rintro s loaded rfl hIns hLoad
            exact not_loads_of_loadsOneOf hExecute hIns hLoad
          · rintro rfl s loaded rfl hIns hLoad
            have hThere : there = false := by simpa using Except.ok.inj hRest
            rw [hThere] at hMemory
            exact not_loads_of_loadsOneOf hMemory hIns hLoad

end Hazard

namespace Pipeline

/-! Execute has no other way to stall for a load than to find an operand missing. -/

section Issue

variable {p : Pipeline} {s : Slot} {ins : Instruction} {mem wb : Option Slot} {step : StageStep}

theorem issueAccelerator_stalls {acc : Accelerator}
    (h : p.issueAccelerator s ins acc mem = .ok step) : .loadUse ∉ step.stalls := by
  rw [issueAccelerator_eq] at h
  obtain ⟨ahead, -, h⟩ := bind_ok h
  split at h
  · cases h
    exact (by decide : StallCause.loadUse ∉ [.memoryOrder])
  · split at h
    · cases h
      exact (by decide : StallCause.loadUse ∉ [.bankConflict])
    · obtain ⟨r, -, h⟩ := bind_ok h
      cases h
      exact List.not_mem_nil

theorem issue_stalls (h : p.issue s ins mem = .ok step) : .loadUse ∉ step.stalls := by
  have hStarted : ∀ {t : Slot}, Except.ok ⟨p, t, true, []⟩ = (.ok step : Except Failure StageStep) →
      .loadUse ∉ step.stalls := by
    intro t hIs
    rw [← Except.ok.inj hIs]
    exact List.not_mem_nil
  unfold issue at h
  dsimp only at h
  split at h
  · obtain ⟨value, -, h⟩ := bind_ok h
    exact hStarted h
  · obtain ⟨jump, -, h⟩ := bind_ok h
    exact hStarted h
  · obtain ⟨base, -, h⟩ := bind_ok h
    exact hStarted h
  · obtain ⟨base, -, h⟩ := bind_ok h
    obtain ⟨value, -, h⟩ := bind_ok h
    exact hStarted h
  · split at h
    · exact issueAccelerator_stalls h
    · exact hStarted h

theorem executeStage_stalls (hIns : s.ins = some ins)
    (hReady : s.started = false →
      (Hazard.forward ins ⟨s.operands, s.sources⟩ mem wb).ready = true)
    (h : p.executeStage s mem wb = .ok step) : .loadUse ∉ step.stalls := by
  unfold executeStage at h
  cases hStarted : s.started with
  | true =>
      rw [if_pos hStarted] at h
      rw [← Except.ok.inj h]
      exact List.not_mem_nil
  | false =>
      rw [if_neg (by rw [hStarted]; nofun)] at h
      obtain ⟨ins', hIs, h⟩ := bind_ok h
      obtain rfl : ins = ins' := Option.some.inj (hIns.symm.trans (Slot.decoded_iff.mp hIs))
      dsimp only at h
      rw [hReady hStarted, if_neg nofun] at h
      obtain ⟨issued, hIssue, h⟩ := bind_ok h
      have hStalls := issue_stalls hIssue
      split at h <;> rw [← Except.ok.inj h] <;> exact hStalls

end Issue

end Pipeline

/-- No load in Memory brings a register that the instruction in Execute has yet to read. -/
def Stages.Supplied (slots : Slots) : Prop :=
  ∀ s t ins loaded, slots.execute = some s → s.started = false → s.ins = some ins →
    slots.memory = some t → t.ins = some loaded → loaded.kind = .load →
      loaded.produces ∉ Hazard.sourceRegisters ins

namespace Pipeline

variable {p : Pipeline} {m m' : Making} {ins : Instruction} {cur : Slots}
  {free free₁ free₂ : Bool} {control : Control}

/-- What is in Memory after its tick has been there before, and has not become free. -/
theorem MemoryRound.stayed {mem : Option Slot} (h : MemoryRound p ins mem m free) {t : Slot}
    (hHeld : m.next.memory = some t) : free = false ∧ ∃ s, mem = some s ∧ t.ins = s.ins := by
  cases h with
  | empty => cases hHeld
  | @moves s step hMove =>
      cases hDone : step.done with
      | true =>
          rw [hDone] at hHeld
          cases hHeld
      | false =>
          rw [hDone] at hHeld
          obtain rfl := Option.some.inj hHeld
          exact ⟨rfl, s, rfl, hMove.ins_eq⟩

/-- After the tick of Execute, its slot has either gone on to Memory or is still there; what is in
Memory otherwise was there before. -/
theorem ExecuteRound.places {ex : Option Slot}
    (h : ExecuteRound m ins cur free₁ ex m' free₂ control) (hExecute : m.next.execute = none) :
    (m'.next.execute = none ∧
      ∀ t, m'.next.memory = some t →
        (∃ s, ex = some s ∧ t.ins = s.ins) ∨ m.next.memory = some t) ∨
    (free₂ = false ∧ m'.next.memory = m.next.memory ∧
      ∃ s t, ex = some s ∧ m'.next.execute = some t ∧ t.ins = s.ins ∧
        (t.started = false → s.started = false)) := by
  cases h with
  | empty => exact .inl ⟨hExecute, fun t hHeld => .inr hHeld⟩
  | @moves s step hMove =>
      cases hLeaves : (step.done && free₁) with
      | true =>
          refine .inl ⟨hExecute, fun t hHeld => .inl ⟨s, rfl, ?_⟩⟩
          obtain rfl := Option.some.inj hHeld
          exact hMove.ins_eq
      | false => exact .inr ⟨rfl, rfl, s, _, rfl, rfl, hMove.ins_eq, hMove.fresh⟩

end Pipeline

/-- Nobody comes to Execute, or to Memory in front of it, without what is to be read there. -/
theorem Round.supplied {a : Machine} {p : Pipeline} {m₁ m₂ m₃ : Making} {free₁ free₂ free₃ : Bool}
    {control : Control} {commit : Option Commit}
    (h : Round p a m₁ m₂ m₃ free₁ free₂ free₃ control commit) (hSupplied : p.slots.Supplied) :
    Stages.Supplied (madeFetch m₃ p.slots.fetch free₃ control).next := by
  obtain ⟨hExecute, hMemory, -⟩ := madeFetch_next m₃ p.slots.fetch free₃ control
  obtain ⟨-, hNoExecute, -⟩ := h.memory.free
  intro s t ins loaded hSlot hFresh hIns hOther hLoaded hLoad
  rw [hExecute] at hSlot
  rw [hMemory, h.decode.next_memory] at hOther
  -- a slot that is in Execute already keeps all in front of it where it has been
  have hOld : m₂.next.execute = some s → loaded.produces ∉ Hazard.sourceRegisters ins := by
    intro hBefore
    rcases h.execute.places hNoExecute with
      ⟨hNone, -⟩ | ⟨-, hSame, s', t', hFrom, hHere, hSameIns, hStill⟩
    · rw [hNone] at hBefore
      cases hBefore
    · obtain rfl := Option.some.inj (hHere.symm.trans hBefore)
      rw [hSame] at hOther
      obtain ⟨-, t₀, hThere, hSameLoad⟩ := h.memory.stayed hOther
      exact hSupplied s' t₀ ins loaded hFrom (hStill hFresh) (hSameIns.symm.trans hIns) hThere
        (hSameLoad.symm.trans hLoaded) hLoad
  have hDecode := h.decode
  generalize p.slots.decode = id at hDecode
  cases hDecode with
  | empty => exact hOld hSlot
  | @moves d hFree hReason =>
      obtain rfl := Option.some.inj hSlot
      obtain rfl := Option.some.inj hIns
      obtain ⟨hNotExecute, hNotMemory⟩ := Hazard.not_loads_of_decodeStall hReason
      rcases h.execute.places hNoExecute with ⟨-, hFrom⟩ | ⟨hTaken, -⟩
      · rcases hFrom t hOther with ⟨s', hCame, hSameIns⟩ | hStayed
        · exact hNotExecute s' loaded hCame (hSameIns.symm.trans hLoaded) hLoad
        · obtain ⟨hTaken, t₀, hThere, hSameIns⟩ := h.memory.stayed hStayed
          exact hNotMemory hTaken t₀ loaded hThere (hSameIns.symm.trans hLoaded) hLoad
      · rw [hTaken] at hFree
        cases hFree
  | waits => exact hOld hSlot
  | flushed => exact hOld hSlot

theorem Stages.kept_supplied : Stages.Kept Stages.Supplied where
  bubbles := by
    intro s t ins loaded hSlot
    cases hSlot
  round hRound _ hSupplied := hRound.supplied hSupplied

namespace Follows

variable {a : Machine} {p : Pipeline}

/-- An instruction that has yet to start in Execute finds all values that are to be handed on to
it. -/
theorem ready (h : Follows a p p.registers p.slots) (hSupplied : p.slots.Supplied) {s : Slot}
    (hSlot : p.slots.execute = some s) (hFresh : s.started = false) :
    (Hazard.forward ((a.past p.slots.writeback).past p.slots.memory).instruction
      ⟨s.operands, s.sources⟩ p.slots.memory p.slots.writeback).ready = true := by
  refine h.back.rear.forward_ready _ fun hSome hLoad entry hEntry hReg hSame => ?_
  obtain ⟨t, hThere⟩ := Option.isSome_iff_exists.mp hSome
  refine hSupplied s t _ _ hSlot hFresh (h.execute_ready s hSlot).1 hThere
    (h.memory_ready t hThere).1 hLoad ?_
  rw [hSame]
  unfold Hazard.sourceRegisters
  simpa using ⟨⟨entry.1, hEntry⟩, hReg⟩

end Follows

end AccelPipe

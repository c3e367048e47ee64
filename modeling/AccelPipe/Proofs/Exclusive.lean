import AccelPipe.Proofs.Forwarding
import AccelPipe.Proofs.InOrder

/-! Blocking units are exclusive. Decode only looks at Execute and Memory, as they were at the end of
the previous tick; slots do not overtake each other, so that no two operations of a blocking unit are
between Execute and Writeback at a time, whatever holds them up on their way. -/
namespace AccelPipe

open Pipeline

/-- Whether a slot is of a kind, as a number. -/
def held (k : Kind) (slot : Option Slot) : Nat := (slot.any (·.isKind k)).toNat

/-- How many of the slots from Writeback to Execute are of a kind. -/
def Stages.ofKind (slots : Slots) (k : Kind) : Nat :=
  held k slots.writeback + held k slots.memory + held k slots.execute

theorem countP_toList (k : Kind) (slot : Option Slot) :
    slot.toList.countP (·.isKind k) = held k slot := by
  cases slot with
  | none => rfl
  | some s => cases hIs : s.isKind k <;> simp [held, hIs]

theorem Stages.countP_rear (slots : Slots) (k : Kind) :
    slots.rear.countP (·.isKind k) = slots.ofKind k := by
  unfold rear older ofKind
  rw [List.countP_append, List.countP_append, countP_toList, countP_toList, countP_toList]

namespace Hazard

variable {k : Kind} {slot ex mem : Option Slot} {ins : Instruction}

theorem not_of_holds (h : holds k slot = .ok false) : held k slot = 0 := by
  cases slot with
  | none => rfl
  | some s =>
      obtain ⟨ins, hIns, hDone⟩ := bind_ok h
      unfold held
      rw [Option.any_some, Slot.isKind_of_ins (Slot.decoded_iff.mp hIns)]
      exact congrArg Bool.toNat (Except.ok.inj hDone)

/-- An instruction that nothing holds up in Decode finds no one else of its kind in Execute or in
Memory if its unit is a blocking one. -/
theorem alone_of_decodeStall {blocking : List Kind} {memoryFree : Bool}
    (h : decodeStall blocking ins ex mem memoryFree = .ok none)
    (hBlocking : ins.kind ∈ blocking) : held ins.kind ex = 0 ∧ held ins.kind mem = 0 := by
  obtain ⟨-, hUnit⟩ := (decodeStall_cases h).resolve_left nofun
  obtain ⟨-, hFree⟩ := hUnit.resolve_left nofun
  unfold waitsForUnit at hFree
  rw [List.contains_iff_mem.mpr hBlocking] at hFree
  obtain ⟨here, hExecute, hFree⟩ := bind_ok hFree
  cases here with
  | true => cases hFree
  | false => exact ⟨not_of_holds hExecute, not_of_holds hFree⟩

end Hazard

namespace Pipeline

/-! No stage changes the kind of its slot. -/

section Stages

variable {p : Pipeline} {m m' : Making} {ins : Instruction} {cur : Slots}
  {free free₁ free₂ : Bool} {control : Control} {k : Kind}

theorem held_of_ins {s t : Slot} (h : t.ins = s.ins) : held k (some t) = held k (some s) := by
  simp [held, Slot.isKind, h]

theorem MemoryRound.ofKind {mem : Option Slot} (h : MemoryRound p ins mem m free) :
    m.next.ofKind k = held k mem := by
  cases h with
  | empty => rfl
  | @moves s step hMove =>
      rw [← held_of_ins hMove.ins_eq]
      cases step.done with
      | true => rfl
      | false => exact Nat.zero_add _

theorem ExecuteRound.ofKind {ex : Option Slot} (h : ExecuteRound m ins cur free₁ ex m' free₂ control)
    (hFree : free₁ = m.next.memory.isNone) (hExecute : m.next.execute = none) :
    m'.next.ofKind k = m.next.ofKind k + held k ex := by
  cases h with
  | empty => rfl
  | @moves s step hMove =>
      have hNoExecute : held k m.next.execute = 0 := congrArg (held k) hExecute
      rw [← held_of_ins hMove.ins_eq]
      unfold Stages.ofKind
      cases hLeaves : (step.done && free₁) with
      | true =>
          obtain ⟨-, hEmpty⟩ := Bool.and_eq_true_iff.mp hLeaves
          rw [hEmpty] at hFree
          have hNoMemory : held k m.next.memory = 0 :=
            congrArg (held k) (Option.isNone_iff_eq_none.mp hFree.symm)
          change held k m.next.writeback + held k (some step.slot) + held k m.next.execute = _
          omega
      | false =>
          change held k m.next.writeback + held k m.next.memory + held k (some step.slot) = _
          omega

/-- Decode adds an operation of a blocking unit only if Execute and Memory have held none. -/
theorem DecodeRound.ofKind {id : Option Slot} {acc : Accelerator} (hBlocking : acc.blocking = true)
    (h : DecodeRound m cur free₁ free₂ control id m' free)
    (hFree : free₂ = m.next.execute.isNone) :
    m'.next.ofKind acc.kind = m.next.ofKind acc.kind ∨
      m'.next.ofKind acc.kind = m.next.ofKind acc.kind + 1 ∧
        held acc.kind cur.execute = 0 ∧ held acc.kind cur.memory = 0 := by
  cases h with
  | empty => exact .inl rfl
  | @moves s hExecuteFree hReason =>
      rw [hExecuteFree] at hFree
      have hNone : held acc.kind m.next.execute = 0 := by
        rw [Option.isNone_iff_eq_none.mp hFree.symm]
        rfl
      unfold decodeReason at hReason
      unfold Stages.ofKind
      dsimp only
      rw [hNone]
      by_cases hKind : (s.ins.getD (Instruction.decode s.word)).kind = acc.kind
      · right
        refine ⟨?_, ?_⟩
        · simp [held, Slot.isKind, Slot.enter, reading, hKind]
        · rw [← hKind]
          refine Hazard.alone_of_decodeStall hReason ?_
          rw [hKind]
          exact List.mem_map_of_mem (List.mem_filter.mpr ⟨by cases acc <;> decide, hBlocking⟩)
      · left
        simp [held, Slot.isKind, Slot.enter, reading, hKind]
  | waits => exact .inl rfl
  | flushed => exact .inl rfl

end Stages

end Pipeline

/-- No blocking unit has two operations between Execute and Writeback. -/
def Stages.Single (slots : Slots) : Prop :=
  ∀ acc : Accelerator, acc.blocking = true → slots.ofKind acc.kind ≤ 1

theorem Stages.single_bubbles : Slots.bubbles.Single := fun _ _ => Nat.zero_le 1

theorem Round.single {a : Machine} {p : Pipeline} {m₁ m₂ m₃ : Making} {free₁ free₂ free₃ : Bool}
    {control : Control} {commit : Option Commit}
    (h : Round p a m₁ m₂ m₃ free₁ free₂ free₃ control commit)
    (hFollows : Follows a p p.registers p.slots) (hSingle : p.slots.Single) :
    (madeFetch m₃ p.slots.fetch free₃ control).next.Single := by
  intro acc hBlocking
  have hOld := hSingle acc hBlocking
  obtain ⟨hMemoryFree, hNoExecute, -⟩ := h.memory.free
  obtain ⟨-, -, hExecuteFree, -⟩ := h.settled hFollows
  have hBefore : m₂.next.ofKind acc.kind =
      held acc.kind p.slots.memory + held acc.kind p.slots.execute := by
    rw [h.execute.ofKind hMemoryFree hNoExecute, h.memory.ofKind]
  obtain ⟨hExecute, hMemory, hWriteback⟩ := madeFetch_next m₃ p.slots.fetch free₃ control
  have hNext : (madeFetch m₃ p.slots.fetch free₃ control).next.ofKind acc.kind =
      m₃.next.ofKind acc.kind := by
    unfold Stages.ofKind
    rw [hExecute, hMemory, hWriteback]
  unfold Stages.ofKind at hOld
  rw [hNext]
  rcases h.decode.ofKind hBlocking hExecuteFree with hSame | ⟨hMore, hNone, hNeither⟩ <;> omega

theorem Stages.kept_single : Stages.Kept Stages.Single :=
  ⟨single_bubbles, fun hRound hFollows hSingle => hRound.single hFollows hSingle⟩

namespace Follows

variable {a : Machine} {p : Pipeline}

/-- The slots from Writeback to Execute hold the instructions behind those that have retired. -/
theorem rear_holds (h : Follows (Machine.after p.retired a) p p.registers p.slots) {i : Nat}
    {s : Slot} (hHeld : p.slots.rear[i]? = some s) : s.Holds (Machine.after (p.retired + i) a) := by
  rcases Stages.rear_cases hHeld with ⟨hSlot, rfl⟩ | ⟨hSlot, rfl⟩ | ⟨hSlot, rfl⟩
  · exact (h.back.rear.writeback s hSlot).toHolds
  · have hExecuted := h.back.rear.executed s hSlot
    rw [Machine.after_past] at hExecuted
    exact hExecuted.toHolds
  · have hHolds := h.back.holds s hSlot
    rw [after_before] at hHolds
    exact hHolds

/-- With an operation of a blocking unit in Execute, all before it of its kind have retired. -/
theorem retired_before (h : Follows (Machine.after p.retired a) p p.registers p.slots)
    (hSingle : p.slots.Single) {s : Slot} (hSlot : p.slots.execute = some s) {acc : Accelerator}
    (hBlocking : acc.blocking = true) (hKind : s.isKind acc.kind = true) :
    held acc.kind p.slots.writeback = 0 ∧ held acc.kind p.slots.memory = 0 ∧
      ∀ i < p.before, (Machine.after i a).instruction.kind = acc.kind → i < p.retired := by
  have hAlone := hSingle acc hBlocking
  have hHere : held acc.kind p.slots.execute = 1 := by
    unfold held
    rw [hSlot, Option.any_some, hKind]
    rfl
  unfold Stages.ofKind at hAlone
  refine ⟨by omega, by omega, fun i hBefore hSame => ?_⟩
  by_contra hOpen
  obtain ⟨j, rfl⟩ := Nat.exists_eq_add_of_le (Nat.not_lt.mp hOpen)
  have hPlace : j < p.slots.older.length := Nat.lt_of_add_lt_add_left hBefore
  have hHolds := h.rear_holds (s := p.slots.older[j]) (i := j) (by
    unfold Stages.rear
    rw [List.getElem?_append_left hPlace, List.getElem?_eq_getElem hPlace])
  have hNone : p.slots.older.countP (·.isKind acc.kind) = 0 := by
    unfold Stages.older
    rw [List.countP_append, countP_toList, countP_toList]
    omega
  refine List.countP_eq_zero.mp hNone _ (List.getElem_mem hPlace) ?_
  rw [hHolds.isKind, hSame, beq_self_eq_true]

end Follows

/-- The blocking units of a pipeline, which stands for the machine `a`, take one operation at a
time. -/
structure Pipeline.Exclusive (a : Machine) (p : Pipeline) : Prop where
  /-- One slot at most from Execute to Writeback is of the kind of a blocking unit. -/
  single : ∀ acc : Accelerator, acc.blocking = true → p.slots.rear.countP (·.isKind acc.kind) ≤ 1
  /-- When an operation starts in Execute, all instructions of its kind before it have retired, and
  they are all that its unit has carried out. -/
  starts : ∀ start, p.starting? = some start → ∀ acc : Accelerator, acc.blocking = true →
    start.step.slot.isKind acc.kind = true →
      start.step.slot.ins = some (Machine.after p.before a).instruction ∧
      (∀ i < p.before, (Machine.after i a).instruction.kind = acc.kind → i < p.retired) ∧
      (p.units.tally acc).ops = (a.history p.retired).countP (·.ins.kind = acc.kind)

theorem Standing.exclusive {a : Machine} {p : Pipeline} (h : Standing a p)
    (hSound : a.Sound) (hUnused : ∀ acc, (a.units.tally acc).ops = 0)
    (hSingle : p.slots.Single) : p.Exclusive a := by
  refine ⟨fun acc hBlocking => ?_, fun start hStart acc hBlocking hKind => ?_⟩
  · rw [Stages.countP_rear]
    exact hSingle acc hBlocking
  · obtain ⟨hRun, s, hSlot, hFresh⟩ := of_starting? hStart
    have hFollows := (h.live hRun).2
    obtain ⟨start', hIs, hDelivered⟩ : ∃ start', p.starting? = some start' ∧
        start'.Delivered (Machine.after p.before a) := by
      rcases hFollows.starts_or_waits hRun hSlot hFresh with ⟨start', hIs, hDelivered, -⟩ | ⟨hNone, -⟩
      · rw [Follows.after_before] at hDelivered
        exact ⟨start', hIs, hDelivered⟩
      · cases hStart.symm.trans hNone
    obtain rfl := Option.some.inj (hStart.symm.trans hIs)
    have hHolds : s.Holds (Machine.after p.before a) := by
      refine hFollows.rear_holds ?_
      unfold Stages.rear
      rw [hSlot, List.getElem?_append_right (Nat.le_refl _), Nat.sub_self]
      rfl
    have hSame : s.isKind acc.kind = true := by
      rw [Slot.isKind_of_ins hDelivered.ins] at hKind
      rw [Slot.isKind_of_ins hHolds.ins]
      exact hKind
    obtain ⟨hWriteback, hMemory, hBefore⟩ :=
      hFollows.retired_before hSingle hSlot hBlocking hSame
    refine ⟨hDelivered.ins, hBefore, ?_⟩
    have hBegun : p.slots.begun.countP (·.isKind acc.kind) = 0 := by
      unfold Stages.begun
      rw [List.countP_append, List.countP_append, countP_toList, countP_toList, hWriteback,
        hMemory, hSlot]
      simp [hFresh]
    rw [hFollows.ops, hBegun, Machine.after_ops hSound, hUnused, Nat.zero_add, Nat.add_zero]

namespace Simulator

variable {c : Config} {program : Image} {data : List (Int × List Int)}

theorem ticks_single (hValid : c.Valid) (k : Nat) :
    ((loaded c program data).ticks k).pipeline.slots.Single :=
  ticks_kept hValid Stages.kept_single (fun _ _ _ => Nat.zero_le 1) k

/-- In every state that ticks lead to, no two operations of a blocking unit are between Execute and
Writeback, and none starts before those of its kind in front of it have retired. -/
theorem ticks_exclusive (hValid : c.Valid) (k : Nat) :
    ((loaded c program data).ticks k).pipeline.Exclusive (c.machine program data) := by
  refine (ticks_standing hValid k).exclusive (hValid.sound_machine program data) (fun acc => ?_)
    (ticks_single hValid k)
  cases acc <;> rfl

/-- Two convolutions, one behind the other. The second one is still in Decode when the first one is in
Writeback, and starts in the tick after the one that retires it. -/
theorem ticks_exclusive_of_two_windows :
    (((loaded .small #[0x0000010e, 0x0000018e, 0x73] []).ticks 12).pipeline.slots.decode.any
        (·.isKind .conv2d)) = true ∧
      (((loaded .small #[0x0000010e, 0x0000018e, 0x73] []).ticks 12).pipeline.slots.writeback.any
        (·.isKind .conv2d)) = true ∧
      (((loaded .small #[0x0000010e, 0x0000018e, 0x73] []).ticks 13).pipeline.starting?.map
        (·.step.slot.isKind .conv2d)) = some true ∧
      ((loaded .small #[0x0000010e, 0x0000018e, 0x73] []).ticks 13).pipeline.retired = 1 ∧
      ∀ k, ((loaded .small #[0x0000010e, 0x0000018e, 0x73] []).ticks k).pipeline.Exclusive
        (Config.small.machine #[0x0000010e, 0x0000018e, 0x73] []) :=
  ⟨by decide +kernel, by decide +kernel, by decide +kernel, by decide +kernel,
    fun k => ticks_exclusive Config.valid_small k⟩

end Simulator

end AccelPipe

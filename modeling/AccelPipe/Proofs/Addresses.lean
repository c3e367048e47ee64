import AccelPipe.Proofs.Exclusive
import AccelPipe.Proofs.Turns

/-! The addresses of the slots. Jumps and branches go to addresses of 32 bits, but the address
that follows a slot in Fetch is not reduced to them: behind the last word that 32 bits reach,
Fetch goes on beyond them. -/
namespace AccelPipe

open Pipeline

/-- A byte address of 32 bits. -/
def IsAddress (pc : Int) : Prop := 0 ≤ pc ∧ pc < 0x100000000

theorem isAddress_of_lt {target : Nat} (h : target < 0x100000000) : IsAddress target :=
  ⟨Int.natCast_nonneg target, Int.ofNat_lt.mpr h⟩

/-- Branch targets are reduced to 32 bits. -/
theorem Instruction.branch_target_lt {ins : Instruction} {ops : Operands} {pc : Int} {taken : Bool}
    {target : Nat} (h : ins.branch ops pc = .ok (taken, target)) : target < 0x100000000 := by
  have hThere := u32_lt (pc + ins.imm)
  have hHere := u32_lt (ops.value .rs1 + ins.imm)
  unfold branch at h
  dsimp only at h
  split at h <;> cases h
  all_goals omega

/-- So is every target of an instruction. -/
theorem perform_target {units units' : Units} {memory : Int → Int} {ins : Instruction}
    {ops : Operands} {pc : Int} {w : Work} (h : perform units memory ins ops pc = .ok (w, units'))
    {target : Nat} (hTarget : w.target = some target) : target < 0x100000000 := by
  unfold perform at h
  split at h
  · obtain ⟨value, -, h⟩ := bind_ok h
    cases h
    cases hTarget
  · obtain ⟨⟨taken, there⟩, hBranch, h⟩ := bind_ok h
    cases h
    cases hTarget
    exact Instruction.branch_target_lt (mapError_ok hBranch)
  · obtain ⟨base, -, h⟩ := bind_ok h
    cases h
    cases hTarget
  · obtain ⟨base, -, h⟩ := bind_ok h
    obtain ⟨value, -, h⟩ := bind_ok h
    cases h
    cases hTarget
  · split at h
    · obtain ⟨r, -, h⟩ := bind_ok h
      cases h
      cases hTarget
    · cases h
      cases hTarget

namespace Machine

variable {a : Machine}

theorem performed_target {target : Nat} (h : a.performed.1.target = some target) :
    target < 0x100000000 := by
  unfold performed at h
  split at h
  · rename_i done hPerform
    exact perform_target hPerform h
  · cases h

/-- What a commit redirects Fetch to is a 32-bit address. -/
theorem control_target {target : Nat} (h : a.commit.control = .redirect target) :
    target < 0x100000000 := by
  have hTarget : a.commit.target = some target := by
    unfold Commit.control at h
    split at h
    · cases h
    · split at h
      · cases h
        assumption
      · cases h
  exact performed_target (a.finished_jump.2.symm.trans hTarget)

/-- In a program that 32-bit addresses reach, an instruction that does not end the run leads to a
32-bit address: if it does not jump, it is a word of the program and has another address behind
it. -/
theorem next_isAddress (hSize : a.program.size < 0x40000000) (hOpen : a.next.halted = false) :
    IsAddress a.next.pc := by
  have hLegal : a.instruction.kind ≠ .illegal := by
    intro hKind
    have hGoesOn := ending_of_open hOpen
    rw [hKind] at hGoesOn
    cases hGoesOn
  rw [next_pc]
  split
  · cases hTarget : a.performed.1.target with
    | none => exact isAddress_of_lt (by decide)
    | some target => exact isAddress_of_lt (performed_target hTarget)
  · obtain ⟨hLow, hHigh⟩ := pc_range hSize hLegal
    exact ⟨by omega, hHigh⟩

/-- Every instruction that is carried out has a 32-bit address. -/
theorem after_isAddress (hSize : a.program.size < 0x40000000) (hStart : IsAddress a.pc) {n : Nat}
    (hOpen : (after n a).halted = false) : IsAddress (after n a).pc := by
  cases n with
  | zero => exact hStart
  | succ n =>
      rw [after_succ] at hOpen ⊢
      exact next_isAddress (by rwa [after_program]) hOpen

end Machine

/-- All slots have 32-bit addresses. -/
def Stages.Addressed (slots : Slots) : Prop := ∀ s, some s ∈ slots.toList → IsAddress s.pc

/-- Slots have addresses of 32 bits if all their marks do. -/
theorem Stages.addressed_iff (slots : Slots) :
    slots.Addressed ↔ ∀ mark ∈ slots.marks, IsAddress mark.1 := by
  unfold Addressed marks
  refine ⟨fun h mark hMark => ?_, fun h s hHeld => ?_⟩
  · obtain ⟨slot, hSlot, hIn⟩ := List.mem_flatMap.mp hMark
    unfold markOf at hIn
    obtain ⟨s, rfl, rfl⟩ := Option.map_eq_some_iff.mp (Option.mem_toList.mp hIn)
    exact h s hSlot
  · exact h s.mark (List.mem_flatMap.mpr ⟨some s, hHeld, List.mem_singleton_self _⟩)

section Rounds

variable {a : Machine} {p : Pipeline} {m₁ m₂ m₃ : Making} {free₁ free₂ free₃ : Bool}
  {control : Control} {commit : Option Commit}

/-- Over a tick, the addresses remain those of 32 bits if Fetch takes up one of them. -/
theorem Round.addressed (h : Round p a m₁ m₂ m₃ free₁ free₂ free₃ control commit)
    (hFollows : Follows a p p.registers p.slots) (hOld : p.slots.Addressed)
    (hOnward : ∀ s, p.slots.fetch = some s → p.tick.2.fetched = p.fetched + 1 →
      s.pc < 0xfffffffc) : p.tick.2.slots.Addressed := by
  rw [((h.tick hFollows).counters).2.2] at hOnward
  rw [Stages.addressed_iff, Stages.marks_eq] at hOld
  have hKept : ∀ mark ∈ markOf p.slots.fetch ++ (markOf p.slots.decode ++
      (markOf p.slots.execute ++ markOf p.slots.memory)), IsAddress mark.1 := by
    intro mark hMark
    refine hOld mark ?_
    simp only [List.mem_append] at hMark ⊢
    tauto
  have hNext : Stages.Addressed (madeFetch m₃ p.slots.fetch free₃ control).next := by
    rw [Stages.addressed_iff]
    rcases h.marks hFollows with ⟨-, -, hMarks⟩ | ⟨-, pc, hTaken, -, hMarks⟩
    · exact fun mark hMark => hKept mark (hMarks.subset hMark)
    · intro mark hMark
      rcases List.mem_cons.mp (hMarks.subset hMark) with rfl | hBefore
      · cases hTaken with
        | redirect =>
            rcases h.begun hFollows with ⟨-, hGoOn⟩ | ⟨-, -, hTells⟩
            · cases hGoOn
            · exact isAddress_of_lt (Machine.control_target hTells.symm)
        | @onward s hSlot hCount =>
            have hHigh := hOnward s hSlot hCount
            obtain ⟨hLow, -⟩ : IsAddress s.pc := hKept s.mark (by simp [markOf, hSlot])
            exact ⟨by omega, by omega⟩
      · exact hKept mark hBefore
  rcases (h.tick hFollows).slots with hSame | hEnd
  · rw [hSame]
    exact hNext
  · rw [hEnd]
    intro s hHeld
    simp [Slots.bubbles, Stages.toList] at hHeld

/-- What Fetch hands on leaves the address behind it there, unreduced. -/
theorem Round.onward (h : Round p a m₁ m₂ m₃ free₁ free₂ free₃ control commit)
    (hFollows : Follows a p p.registers p.slots) (hCount : p.tick.2.fetched = p.fetched + 1) :
    ∃ s, p.slots.fetch = some s ∧ p.tick.2.slots.fetch.map (·.pc) = some (s.pc + 4) := by
  rw [((h.tick hFollows).counters).2.2] at hCount
  rcases h.marks hFollows with ⟨-, hSame, -⟩ | ⟨-, pc, hTaken, hHere, -⟩
  · omega
  · have hFetch : (madeFetch m₃ p.slots.fetch free₃ control).next.fetch.isSome = true := by
      obtain ⟨s, hSlot, -⟩ := Option.map_eq_some_iff.mp hHere
      rw [hSlot]
      rfl
    rw [h.tick_slots_of_fetch hFollows hFetch]
    cases hTaken with
    | redirect hSame => omega
    | onward hSlot => exact ⟨_, hSlot, hHere⟩

end Rounds

theorem Stages.fetch_mem_toList {slots : Slots} {s : Slot} (h : slots.fetch = some s) :
    some s ∈ slots.toList := by
  simp [toList, h]

/-- With 32-bit addresses before a tick, they are so behind it unless Fetch goes beyond the last
one. -/
theorem Standing.addressed_tick {a : Machine} {p : Pipeline} (h : Standing a p)
    (hRun : p.status.finished = false) (hOld : p.slots.Addressed) :
    p.tick.2.slots.Addressed ↔
      ∀ s, p.slots.fetch = some s → p.tick.2.fetched = p.fetched + 1 → s.pc < 0xfffffffc := by
  have hFollows := (h.live hRun).2
  obtain ⟨_, _, _, _, _, _, _, _, hRound⟩ := hFollows.round hRun
  refine ⟨fun hNew s hSlot hCount => ?_, hRound.addressed hFollows hOld⟩
  obtain ⟨s', hSlot', hNext⟩ := hRound.onward hFollows hCount
  obtain rfl := Option.some.inj (hSlot.symm.trans hSlot')
  obtain ⟨t, hFetch, hPc⟩ := Option.map_eq_some_iff.mp hNext
  have hHigh := (hNew t (Stages.fetch_mem_toList hFetch)).2
  omega

/-- Where the slots of a pipeline are, for a program that 32-bit addresses reach. -/
structure Pipeline.Within (p : Pipeline) : Prop where
  /-- What has left Decode has a 32-bit address. -/
  rear : ∀ s ∈ p.slots.rear, IsAddress s.pc
  decode : ∀ s, p.slots.decode = some s → 0 ≤ s.pc ∧ s.pc < 0x100000000 + 4
  fetch : ∀ s, p.slots.fetch = some s → 0 ≤ s.pc ∧ s.pc < 0x100000000 + 8

namespace Follows

variable {a : Machine} {p : Pipeline}

/-- What has come to Execute has a 32-bit address. -/
theorem rear_isAddress (h : Follows (Machine.after p.retired a) p p.registers p.slots)
    (hSize : a.program.size < 0x40000000) (hStart : IsAddress a.pc) :
    ∀ s ∈ p.slots.rear, IsAddress s.pc := by
  intro s hHeld
  obtain ⟨i, hPlace⟩ := List.mem_iff_getElem?.mp hHeld
  have hHolds := h.rear_holds hPlace
  rw [hHolds.pc]
  exact Machine.after_isAddress hSize hStart hHolds.running

/-- As long as instructions are fetched, the first of them that has not come to Execute is one
behind the last 32-bit address at most. -/
theorem behind_range (h : Follows (Machine.after p.retired a) p p.registers p.slots)
    (hSize : a.program.size < 0x40000000) (hStart : IsAddress a.pc)
    (hOpen : p.fetchStopped = false) :
    let behind := (Machine.after p.before a).behind p.slots.execute
    0 ≤ behind ∧ behind < 0x100000000 + 4 := by
  have hStopped := h.stopped
  rw [after_before, hOpen] at hStopped
  have hNext : (Machine.after p.before a).next = Machine.after (p.before + 1) a :=
    (Machine.after_succ _ _).symm
  cases hSlot : p.slots.execute with
  | none =>
      rw [hSlot, Machine.ahead_none] at hStopped
      rw [Machine.behind_none]
      obtain ⟨hLow, hHigh⟩ := Machine.after_isAddress hSize hStart hStopped.symm
      exact ⟨hLow, by omega⟩
  | some s =>
      cases hStarted : s.started with
      | true =>
          rw [hSlot, Machine.ahead_started _ hStarted, hNext] at hStopped
          rw [Machine.behind_started _ hStarted, hNext]
          obtain ⟨hLow, hHigh⟩ := Machine.after_isAddress hSize hStart hStopped.symm
          exact ⟨hLow, by omega⟩
      | false =>
          rw [hSlot, Machine.ahead_fresh _ hStarted] at hStopped
          rw [Machine.behind_fresh _ hStarted]
          obtain ⟨hLow, hHigh⟩ := Machine.after_isAddress hSize hStart hStopped.symm
          exact ⟨by omega, by omega⟩

/-- In a program that 32-bit addresses reach, Decode is no more than one word behind the last of
them, and Fetch no more than two. -/
theorem within (h : Follows (Machine.after p.retired a) p p.registers p.slots)
    (hSize : a.program.size < 0x40000000) (hStart : IsAddress a.pc) : p.Within := by
  have hFront := h.front
  rw [after_before] at hFront
  refine ⟨h.rear_isAddress hSize hStart, fun s hSlot => ?_, fun s hSlot => ?_⟩
  · have hOpen : p.fetchStopped = false := by
      by_contra hNot
      cases (hFront.empty (Bool.not_eq_false _ ▸ hNot)).symm.trans hSlot
    rw [(hFront.decode s hSlot).1]
    exact h.behind_range hSize hStart hOpen
  · have hOpen : p.fetchStopped = false := by
      have hLive := hFront.live
      rw [hSlot] at hLive
      simpa using hLive
    have hRange := h.behind_range hSize hStart hOpen
    rw [(hFront.fetch s hSlot).1]
    dsimp only at hRange
    split <;> omega

end Follows

/-- In a state in which both are filled, the address in Fetch is four beyond the one in Decode. -/
def Pipeline.Consecutive (p : Pipeline) : Prop :=
  ∀ s t, p.slots.decode = some s → p.slots.fetch = some t → t.pc = s.pc + 4

namespace Standing

variable {a : Machine} {p : Pipeline}

/-- That is so in every state of a run. -/
theorem within (h : Standing a p) (hSize : a.program.size < 0x40000000) (hStart : IsAddress a.pc) :
    p.Within := by
  cases h with
  | underWay hRuns hFollows => exact hFollows.within hSize hStart
  | ended hStatus hSlots =>
      refine ⟨fun s hHeld => ?_, fun s hSlot => ?_, fun s hSlot => ?_⟩
      · rw [hSlots] at hHeld
        cases hHeld
      · rw [hSlots] at hSlot
        cases hSlot
      · rw [hSlots] at hSlot
        cases hSlot

/-- In every state of a run the address in Fetch follows the one in Decode. -/
theorem consecutive (h : Standing a p) : p.Consecutive := by
  intro s t hDecode hFetch
  cases h with
  | underWay hRuns hFollows =>
      rw [(hFollows.front.fetch t hFetch).1, (hFollows.front.decode s hDecode).1, hDecode]
      rfl
  | ended hStatus hSlots =>
      rw [hSlots] at hDecode
      cases hDecode

end Standing

namespace Simulator

/-- Over the next tick, Fetch hands on an address that has a 32-bit address behind it, if it hands
on any. -/
def StaysWithin (s : Simulator) : Prop :=
  ∀ slot, s.pipeline.slots.fetch = some slot →
    s.tick.2.pipeline.fetched = s.pipeline.fetched + 1 → slot.pc < 0xfffffffc

/-- A tick keeps all addresses within 32 bits exactly if Fetch does not go on behind the last one.
-/
theorem addressed_tick {a : Machine} {s : Simulator} (h : Standing a s.pipeline)
    (hOld : s.pipeline.slots.Addressed) :
    s.tick.2.pipeline.slots.Addressed ↔ s.StaysWithin := by
  unfold StaysWithin
  change (advance s.config.maxCycles s.pipeline).2.slots.Addressed ↔ ∀ slot,
    s.pipeline.slots.fetch = some slot →
      (advance s.config.maxCycles s.pipeline).2.fetched = s.pipeline.fetched + 1 → _
  rcases advance_cases s.config.maxCycles s.pipeline with
    ⟨-, hSame⟩ | ⟨-, -, hTimeout⟩ | ⟨hRun, -, hTick | ⟨-, mismatches, hTick⟩⟩
  · rw [hSame]
    exact ⟨fun _ slot _ hCount => by omega, fun _ => hOld⟩
  · rw [hTimeout]
    refine ⟨fun _ slot _ hCount => ?_, fun _ => hOld⟩
    change s.pipeline.fetched = _ at hCount
    omega
  · rw [hTick]
    exact h.addressed_tick hRun hOld
  · rw [hTick]
    exact h.addressed_tick hRun hOld

variable {c : Config} {program : Image} {data : List (Int × List Int)}

/-- The slots have 32-bit addresses exactly as long as nothing is handed on from Fetch at the last
of them: the address that Fetch takes up is always the one behind it, unreduced. In a program that
32-bit addresses reach, it never leads further than into Decode. -/
theorem ticks_addresses (hValid : c.Valid) (hLow : 0 ≤ c.startPc) (hHigh : c.startPc < 0x100000000)
    (k : Nat) :
    let s := (loaded c program data).ticks
    ((∀ j ≤ k, (s j).pipeline.slots.Addressed) ↔ ∀ j < k, (s j).StaysWithin) ∧
      (s k).pipeline.Consecutive ∧
      (program.size < 0x40000000 → (s k).pipeline.Within) := by
  intro s
  have hFirst : (s 0).pipeline.slots.Addressed := by
    change (loaded c program data).pipeline.slots.Addressed
    rw [loaded_pipeline, build_eq]
    intro slot hHeld
    change some slot ∈ [some { pc := c.startPc, seq := 1 }, none, none, none, none] at hHeld
    obtain rfl : slot = { pc := c.startPc, seq := 1 } := by simpa using hHeld
    exact ⟨hLow, hHigh⟩
  have hStep : ∀ j, (s j).pipeline.slots.Addressed →
      ((s (j + 1)).pipeline.slots.Addressed ↔ (s j).StaysWithin) :=
    fun j => addressed_tick (ticks_standing hValid j)
  refine ⟨⟨fun hAll j hLess => ?_, fun hStays j hLe => ?_⟩, (ticks_standing hValid k).consecutive,
    fun hSize => (ticks_standing hValid k).within hSize ⟨hLow, hHigh⟩⟩
  · exact (hStep j (hAll j (Nat.le_of_lt hLess))).mp (hAll (j + 1) hLess)
  · induction j with
    | zero => exact hFirst
    | succ j ih => exact (hStep j (ih (Nat.le_of_succ_le hLe))).mpr (hStays j hLe)

/-- A small memory, and a run that starts elsewhere than at zero. -/
def runFrom (pc : Int) : Config := { Config.small with startPc := pc }

/-- A configuration may start at any word. -/
theorem valid_runFrom {pc : Int} (hEven : pc % 4 = 0) : (runFrom pc).Valid :=
  (Config.accepted_small.startingAt hEven).toValid

/-- A run that starts at the last address but one: the second tick leaves 32 bits, and the
instruction that is off the program ends the run before anything behind it comes to Execute. -/
theorem ticks_addresses_of_last_but_one :
    let s := (loaded (runFrom 0xfffffff8) #[0x73] []).ticks
    (s 2).pipeline.slots.toList.map (Option.map (·.pc)) =
        [some 0x100000000, some 0xfffffffc, some 0xfffffff8, none, none] ∧
      (s 6).status = .illegalInstruction ∧
      ((∀ j ≤ 6, (s j).pipeline.slots.Addressed) ↔ ∀ j < 6, (s j).StaysWithin) ∧
      (s 6).pipeline.Consecutive ∧
      ((#[0x73] : Image).size < 0x40000000 → (s 6).pipeline.Within) :=
  ⟨by decide +kernel, by decide +kernel,
    ticks_addresses (valid_runFrom (by decide)) (by decide) (by decide) 6⟩

/-- Behind the last 32-bit address, Fetch takes up one that is none, where the reference machine
goes on at zero. -/
theorem not_addressed_behind_last_address :
    let c := runFrom 0xfffffffc
    let slots := ((loaded c #[0x73] []).ticks 1).pipeline.slots
    (c.Valid ∧ 0 ≤ c.startPc ∧ c.startPc < 0x100000000) ∧
      slots.fetch.map (·.pc) = some 0x100000000 ∧ u32 (c.startPc + 4) = 0 ∧ ¬slots.Addressed := by
  intro c slots
  have hFetch : slots.fetch.map (·.pc) = some 0x100000000 := by decide +kernel
  refine ⟨⟨valid_runFrom (by decide), by decide, by decide⟩, hFetch, by decide, fun hAll => ?_⟩
  obtain ⟨s, hSlot, hPc⟩ := Option.map_eq_some_iff.mp hFetch
  have hHigh := (hAll s (Stages.fetch_mem_toList hSlot)).2
  omega

end Simulator

end AccelPipe

import AccelPipe.Proofs.NoAnomaly
import AccelPipe.Proofs.Pipeline.Standing
import AccelPipe.Proofs.Progress
import AccelPipe.Proofs.Simulator.Budget

/-! Runs at full speed. An instruction that neither accesses memory nor keeps a unit for longer than
a tick holds up nobody behind it, however slow the memory is. A run of such instructions has no
stall, and every cycle of it is one of an instruction or of a taken branch, but for the four in which
the last instruction drains. -/
namespace AccelPipe

open Pipeline

/-- Whether the instructions of a kind take one tick in every stage. -/
def Kind.isBrief : Kind → Bool
  | .alu | .branch | .mac | .relu | .system | .illegal => true
  | .load | .store | .conv2d | .fir | .pool => false

section Brief

variable {ins : Instruction}

/-- A brief instruction does not access memory. -/
theorem Kind.plain_of_brief {k : Kind} (h : k.isBrief = true) : k ≠ .load ∧ k ≠ .store := by
  cases k <;> first | cases h; done | exact ⟨nofun, nofun⟩

/-- Its unit does not block another one. -/
theorem Kind.not_blocking_of_brief {k : Kind} (h : k.isBrief = true) :
    ((Accelerator.all.filter Accelerator.blocking).map Accelerator.kind).contains k = false := by
  cases k <;> first | cases h; done | rfl

/-- A brief instruction of a unit reads no memory, -/
theorem Units.reads_of_brief (u : Units) (ops : Operands) (h : ins.kind.isBrief = true)
    {acc : Accelerator} (hKind : ins.kind = acc.kind) : u.reads acc ins ops = [] := by
  rw [hKind] at h
  cases acc <;> first | cases h; done | rfl

/-- takes one tick, -/
theorem Units.beats_of_brief (u : Units) (h : ins.kind.isBrief = true) : u.beats ins = 1 := by
  unfold beats
  cases hKind : ins.kind <;> rw [hKind] at h <;> first | cases h; done | rfl

/-- and no banks. -/
theorem Machine.reads_of_brief {a : Machine} (h : a.instruction.kind.isBrief = true) :
    a.reads = [] := by
  by_cases hUnit : ∃ acc : Accelerator, a.instruction.kind = acc.kind
  · obtain ⟨acc, hKind⟩ := hUnit
    rw [Machine.reads_of_kind hKind]
    exact a.units.reads_of_brief _ h hKind
  · exact Machine.reads_of_plain fun acc hKind => hUnit ⟨acc, hKind⟩

end Brief

/-! No stage has a stall. -/

/-- Without addresses no bank is in the way. -/
theorem Memory.reserveBurst_nil (m : Memory) (cycle ticks : Int) :
    (m.reserveBurst [] cycle ticks).1 = [] := by
  unfold reserveBurst touched
  simp

namespace Pipeline

/-- Memory lets a brief instruction pass at once. -/
theorem MemoryRound.no_stalls {p : Pipeline} {ins : Instruction} {mem : Option Slot} {m : Making}
    {free : Bool} (h : MemoryRound p ins mem m free)
    (hBrief : mem.isSome = true → ins.kind.isBrief = true) : m.stalls = [] := by
  cases h with
  | empty => rfl
  | moves hMove =>
      obtain ⟨hLoad, hStore⟩ := Kind.plain_of_brief (hBrief rfl)
      cases hMove with
      | passes => rfl
      | refused hKind => exact (hKind.elim hLoad hStore).elim
      | waits => rfl
      | loads => rfl
      | stores => rfl

/-- An instruction that finds its operands ready starts at once. -/
theorem ExecuteRound.no_stalls {m m' : Making} {ins : Instruction} {cur : Slots}
    {free free' : Bool} {ex : Option Slot} {control : Control}
    (h : ExecuteRound m ins cur free ex m' free' control)
    (hBrief : ex.isSome = true → ins.kind.isBrief = true)
    (hReady : ∀ latched, (Hazard.forward ins latched cur.memory cur.writeback).ready = true) :
    m'.stalls = m.stalls := by
  cases h with
  | empty => rfl
  | moves hMove =>
      have hNone := fun (acc : Accelerator) ops (hKind : ins.kind = acc.kind) =>
        m.pipeline.units.reads_of_brief ops (hBrief rfl) hKind
      cases hMove with
      | advances => exact List.append_nil _
      | unready _ hUnready =>
          rw [hReady] at hUnready
          cases hUnready
      | ordered _ _ hKind hReads => exact absurd (hNone _ _ hKind) hReads
      | blocked _ _ hKind hBlocked =>
          rw [hNone _ _ hKind] at hBlocked
          exact absurd (m.pipeline.memory.reserveBurst_nil _ _) hBlocked
      | starts => exact List.append_nil _

/-- Nobody in front keeps an instruction in Decode. -/
theorem DecodeRound.no_stalls {m m' : Making} {cur : Slots} {free₁ free₂ free : Bool}
    {control : Control} {id : Option Slot}
    (h : DecodeRound m cur free₁ free₂ control id m' free)
    (hReason : ∀ s, id = some s → decodeReason cur free₁ s = .ok none) : m'.stalls = m.stalls := by
  cases h with
  | empty => rfl
  | moves => rfl
  | waits hIs =>
      cases (hReason _ rfl).symm.trans hIs
      rw [Option.toList_none, ite_self]
      exact List.append_nil _
  | flushed => rfl

end Pipeline

/-- Every instruction on the way to the end of the run takes one tick in every stage. -/
def Machine.Brief (a : Machine) : Prop :=
  ∀ n, a.Runs n → (Machine.after n a).instruction.kind.isBrief = true

/-- A stretch of so many brief instructions from one machine to another; none of them ends the run. -/
inductive Machine.Leads (a : Machine) : Nat → Machine → Prop
  | refl : Leads a 0 a
  | step {n : Nat} {b : Machine} (h : Leads a n b) (hBrief : b.instruction.kind.isBrief = true)
      (hGoesOn : ending b.instruction.kind = none) : Leads a (n + 1) b.next

namespace Machine.Leads

variable {a b d : Machine} {n m : Nat}

/-- One instruction, whose mnemonic says that it is brief and that the run goes on. -/
theorem of_mnemonic {m : Mnemonic} (h : a.instruction.mnemonic = m) (hBrief : m.kind.isBrief = true)
    (hGoesOn : ending m.kind = none) : a.Leads 1 a.next := by
  have hKind : a.instruction.kind = m.kind := congrArg Mnemonic.kind h
  exact refl.step (hKind ▸ hBrief) (hKind ▸ hGoesOn)

/-- Ways of a machine can be joined. -/
theorem trans (h : a.Leads n b) (h' : b.Leads m d) : a.Leads (n + m) d := by
  induction h' with
  | refl => exact h
  | step _ hBrief hGoesOn ih => exact ih.step hBrief hGoesOn

/-- A way leads to where it ends, -/
theorem after (h : a.Leads n b) : Machine.after n a = b := by
  induction h with
  | refl => rfl
  | step _ _ _ ih => rw [after_succ, ih]

/-- through instructions that do not end the run, -/
theorem runs (h : a.Leads n b) : a.Runs n := by
  induction h with
  | refl => nofun
  | step h _ hGoesOn ih => exact ih.succ (h.after.symm ▸ hGoesOn)

/-- all of which are brief. -/
theorem brief_before (h : a.Leads n b) :
    ∀ i < n, (Machine.after i a).instruction.kind.isBrief = true := by
  induction h with
  | refl => nofun
  | step h hBrief _ ih =>
      intro i hLess
      rcases Nat.lt_succ_iff_lt_or_eq.mp hLess with hBefore | rfl
      · exact ih i hBefore
      · exact h.after.symm ▸ hBrief

/-- A stretch that comes to the end of the run is all of it. -/
theorem brief (h : a.Leads n b) (hEnds : ending b.instruction.kind ≠ none)
    (hLast : b.instruction.kind.isBrief = true) : a.Brief := by
  intro i hRuns
  rcases Nat.lt_trichotomy i n with hBefore | rfl | hBehind
  · exact h.brief_before i hBefore
  · exact h.after.symm ▸ hLast
  · have hGoesOn := hRuns n hBehind
    rw [h.after] at hGoesOn
    exact absurd hGoesOn hEnds

end Machine.Leads

namespace Follows

variable {a : Machine} {p : Pipeline} {n : Nat}

/-- In a brief run, what is in Memory is brief. -/
theorem memory_brief (h : Follows (Machine.after n a) p p.registers p.slots) (hRuns : a.Runs n)
    (hBrief : a.Brief) (hSome : p.slots.memory.isSome = true) :
    ((Machine.after n a).past p.slots.writeback).instruction.kind.isBrief = true := by
  obtain ⟨s, hSlot⟩ := Option.isSome_iff_exists.mp hSome
  have hOpen := (h.back.rear.executed s hSlot).running
  rw [Machine.after_past]
  exact hBrief _ (hRuns.past hOpen)

/-- So is what is in Execute. -/
theorem execute_brief (h : Follows (Machine.after n a) p p.registers p.slots) (hRuns : a.Runs n)
    (hBrief : a.Brief) (hSome : p.slots.execute.isSome = true) :
    (((Machine.after n a).past p.slots.writeback).past p.slots.memory).instruction.kind.isBrief =
      true := by
  obtain ⟨s, hSlot⟩ := Option.isSome_iff_exists.mp hSome
  have hOpen := (h.back.holds s hSlot).running
  obtain ⟨-, hBehind⟩ := h.back.rear.goes_on hOpen
  have hFurther := hRuns.past hBehind
  rw [Machine.after_past] at hOpen ⊢
  rw [Machine.after_past]
  exact hBrief _ (hFurther.past hOpen)

end Follows

/-- With brief instructions in Memory and in Execute, a tick has no stalls. -/
theorem Round.no_stalls {a : Machine} {p : Pipeline} {m₁ m₂ m₃ : Making} {free₁ free₂ free₃ : Bool}
    {control : Control} {commit : Option Commit}
    (h : Round p a m₁ m₂ m₃ free₁ free₂ free₃ control commit)
    (hFollows : Follows a p p.registers p.slots)
    (hMemory : p.slots.memory.isSome = true →
      (a.past p.slots.writeback).instruction.kind.isBrief = true)
    (hExecute : p.slots.execute.isSome = true →
      ((a.past p.slots.writeback).past p.slots.memory).instruction.kind.isBrief = true) :
    (madeFetch m₃ p.slots.fetch free₃ control).stalls = [] := by
  have hReady : ∀ latched, (Hazard.forward
      ((a.past p.slots.writeback).past p.slots.memory).instruction latched p.slots.memory
      p.slots.writeback).ready = true := fun latched =>
    hFollows.back.rear.forward_ready latched fun hSome hLoad =>
      absurd hLoad (Kind.plain_of_brief (hMemory hSome)).1
  have hReason : ∀ s, p.slots.decode = some s → decodeReason p.slots free₁ s = .ok none := by
    intro s _
    unfold decodeReason
    rw [Hazard.decodeStall_none_iff (fun r hIs => hFollows.back.holds r hIs)
      fun r hIs => (hFollows.back.rear.executed r hIs).toHolds]
    refine ⟨fun reg _ => ⟨?_, ?_⟩, fun hBlocking => ⟨?_, ?_⟩⟩
    · rintro ⟨hSome, hLoad, -⟩
      exact (Kind.plain_of_brief (hExecute hSome)).1 hLoad
    · rintro ⟨hSome, hLoad, -⟩
      exact absurd hLoad (Kind.plain_of_brief (hMemory hSome)).1
    · rintro ⟨hSome, hSame⟩
      rw [← hSame, Kind.not_blocking_of_brief (hExecute hSome)] at hBlocking
      cases hBlocking
    · rintro ⟨hSome, hSame⟩
      rw [← hSame, Kind.not_blocking_of_brief (hMemory hSome)] at hBlocking
      cases hBlocking
  rw [(madeFetch_pipeline m₃ p.slots.fetch free₃ control).2.1, h.decode.no_stalls hReason,
    h.execute.no_stalls hExecute hReady]
  exact h.memory.no_stalls hMemory

/-- A tick counts the stalls of its stages, however it ends. -/
theorem Tick.stalls {p : Pipeline} {a : Machine} {m : Making} {t : Except Failure Unit × Pipeline}
    (h : Tick p a m t) : t.2.stalls = bumpAll p.stalls m.stalls := by
  cases h with
  | idle hWb hRest => rw [hRest]
  | retires hWb hCommit hCycle hKind hCompared hRest => rw [hRest]
  | fails hWb hCommit hKind hCompared hRest => rw [hRest]
  | illegal hWb hKind hRest => rw [hRest]

/-- A run of brief instructions never stalls. -/
theorem Steps.no_stalls {a : Machine} {p q : Pipeline} (h : Steps p q) (hStart : Reached a p)
    (hBrief : a.Brief) : q.stalls = p.stalls := by
  induction h with
  | refl => rfl
  | @tick q r hSteps hRun hTick ih =>
      obtain ⟨n, hRetired, -, hFollows⟩ := (hSteps.reached hStart).live hRun
      obtain ⟨_, _, _, _, _, _, _, _, hRound⟩ := hFollows.round hRun
      have hStalls := (hRound.tick hFollows).stalls
      rw [hRound.no_stalls hFollows (hFollows.memory_brief hRetired.runs hBrief)
        (hFollows.execute_brief hRetired.runs hBrief), hTick] at hStalls
      exact hStalls.trans ih

/-- A brief run has no stalls at all. -/
theorem RunState.no_stalls {a : Machine} {p q : Pipeline} (h : RunState p q) (hStart : Reached a p)
    (hBrief : a.Brief) : q.stalls = p.stalls := by
  cases h with
  | underWay hSteps _ => exact hSteps.no_stalls hStart hBrief
  | timedOut hSteps => exact hSteps.no_stalls hStart hBrief
  | ended hSteps _ hFinal =>
      rw [Simulator.finalize_rest hFinal]
      exact hSteps.no_stalls hStart hBrief

/-! The timetable of such a run. -/

namespace Timetable

/-- A timetable by which nobody waits for anybody. -/
structure FullSpeed (b : Timetable) : Prop where
  memory : b.memory ≤ b.decode + 1
  writeback : b.writeback ≤ b.decode + 2
  loads : ∀ reg, b.loads reg = 0

namespace FullSpeed

variable {b : Timetable}

/-- A table starts at full speed. -/
theorem start (c : Config) (a : Machine) : (Timetable.start c a).FullSpeed :=
  ⟨Nat.zero_le _, Nat.zero_le _, fun _ => rfl⟩

variable (h : b.FullSpeed) (hBrief : b.instruction.kind.isBrief = true)
include h hBrief

/-- At full speed an instruction executes in the cycle behind Decode, -/
theorem executes : b.executes = b.decode + 1 := by
  refine Nat.le_antisymm (executes_le_iff.mpr ⟨Nat.lt_succ_self _, h.memory, ?_⟩)
    b.decode_lt_executes
  rw [hazards_le_iff]
  refine ⟨fun reg _ => ?_, fun hBlocking => ?_⟩
  · rw [h.loads]
    exact Nat.zero_le _
  · rw [Kind.not_blocking_of_brief hBrief] at hBlocking
    cases hBlocking

/-- starts in the next one, -/
theorem starts : b.starts = b.decode + 2 := by
  rw [starts_of_reads (Machine.reads_of_brief hBrief), h.executes hBrief]

/-- when it also arrives in Memory, -/
theorem arrives : b.arrives = b.decode + 2 := by
  have hWriteback := h.writeback
  unfold Timetable.arrives worked
  rw [h.starts hBrief, Units.beats_of_brief _ hBrief]
  omega

/-- and retires in the one behind that. -/
theorem retires : b.retires = b.decode + 3 := by
  obtain ⟨hLoad, hStore⟩ := Kind.plain_of_brief hBrief
  have hDoor := door_of_plain hLoad hStore
  rw [retires_of_none hDoor, begins_of_none hDoor, h.arrives hBrief]

/-- The instruction behind comes one cycle later, or two more if it is jumped to. -/
theorem decode_next :
    b.next.decode = b.decode + 1 + 2 * if b.machine.performed.1.taken then 1 else 0 := by
  cases hTaken : b.machine.performed.1.taken with
  | false => exact (decode_next_of_straight hTaken).trans (h.executes hBrief)
  | true =>
      rw [decode_next_of_taken hTaken, h.starts hBrief]
      rfl

/-- The instruction behind a brief one is at full speed, too. -/
theorem next : b.next.FullSpeed := by
  have hDecode := h.decode_next hBrief
  refine ⟨?_, ?_, fun reg => ?_⟩
  · change b.arrives ≤ _
    rw [h.arrives hBrief]
    omega
  · change b.retires ≤ _
    rw [h.retires hBrief]
    omega
  · exact (if_neg fun hLoad => (Kind.plain_of_brief hBrief).1 hLoad.1).trans (h.loads reg)

end FullSpeed

/-- Every instruction adds a cycle, and every taken branch two. -/
theorem FullSpeed.after {b : Timetable} (h : b.FullSpeed) {n : Nat}
    (hBrief : ∀ i < n, (Machine.after i b.machine).instruction.kind.isBrief = true) :
    (Timetable.after n b).FullSpeed ∧
      (Timetable.after n b).decode + 2 * b.machine.flushes =
        b.decode + n + 2 * (Machine.after n b.machine).flushes := by
  induction n with
  | zero => exact ⟨h, rfl⟩
  | succ n ih =>
      obtain ⟨hNow, hDecode⟩ := ih fun i hLess => hBrief i (Nat.lt_succ_of_lt hLess)
      have hHere : (Timetable.after n b).instruction.kind.isBrief = true := by
        unfold Timetable.instruction
        rw [machine_after]
        exact hBrief n (Nat.lt_succ_self n)
      have hNext := hNow.decode_next hHere
      rw [machine_after] at hNext
      rw [after_succ, Machine.after_succ, Machine.next_flushes]
      exact ⟨hNow.next hHere, by omega⟩

end Timetable

/-- An instruction that ends a run is not a jump. -/
theorem Machine.flushes_of_ending {a : Machine} (h : a.Sound)
    (hEnds : ending a.instruction.kind ≠ none) : a.next.flushes = a.flushes := by
  rw [next_flushes]
  cases hTaken : a.performed.1.taken with
  | false => rfl
  | true =>
      rw [((performed_fits h).target hTaken).1] at hEnds
      exact absurd rfl hEnds

/-- Where a run exits, the machine has come to its last instruction. -/
theorem Reached.exit {a : Machine} {p : Pipeline} (h : Reached a p) (hExited : p.status = .exited) :
    ∃ n, a.Runs n ∧ (Machine.after n a).instruction.kind = .system ∧ p.retired = n + 1 ∧
      Ended (Machine.after (n + 1) a) p := by
  cases h with
  | underWay _ _ _ hStatus =>
      rw [hExited] at hStatus
      rcases hStatus with hOpen | hTimeout
      · cases hOpen
      · cases hTimeout
  | exited hRuns hRetired _ hKind hEnded _ => exact ⟨_, hRuns, hKind, hRetired, hEnded⟩
  | illegal _ _ _ hStatus => cases hStatus.symm.trans hExited

/-- Brief instructions read no windows. -/
theorem InStep.exact_of_brief {r : Reference} {a : Machine} (h : InStep r a) (hBrief : a.Brief)
    {n k : Nat} (hRuns : a.Runs n) (hLess : k ≤ n + 1) : r.Exact k := by
  induction k with
  | zero => nofun
  | succ k ih =>
      have hExact := ih (Nat.le_of_succ_le hLess)
      have hBefore := hRuns.mono (Nat.le_of_succ_le_succ hLess)
      intro i hWithin hOpen
      rcases Nat.lt_succ_iff_lt_or_eq.mp hWithin with hEarlier | rfl
      · exact hExact i hEarlier hOpen
      · intro hPool
        have hHere := hBrief i hBefore
        rw [(h.after hExact hBefore).1.instruction_eq] at hPool
        rw [hPool] at hHere
        cases hHere

namespace Simulator

section FullSpeed

variable {c : Config} (hValid : c.Valid) {program : Image} {data : List (Int × List Int)}
  (hBrief : (c.machine program data).Brief)
include hValid hBrief

/-- Whatever the memory is like, a run of brief instructions that exits has no stall. It has taken
one cycle for each instruction, four more for the last one, and two for each flush. -/
theorem run_full_speed {budget : Option Int} {s : Simulator}
    (hRun : (loaded c program data).run budget = (.ok (), s)) (hExited : s.status = .exited) :
    s.cycle = s.pipeline.retired + 4 + 2 * s.pipeline.flushes ∧ s.pipeline.stalls = [] := by
  have hState := run_runState hRun
  have hStart := hValid.reached_build program data
  constructor
  · obtain ⟨n, hRuns, hSystem, hRetired, hEnded⟩ := (hState.reached hStart).exit hExited
    obtain ⟨hFull, hDecode⟩ := (Timetable.FullSpeed.start c (c.machine program data)).after
      (n := n) fun i hLess => hBrief i (hRuns.mono (Nat.le_of_lt hLess))
    have hLast := Machine.flushes_of_ending ((hValid.sound_machine program data).after n)
      (by rw [hSystem]; nofun)
    have hRetires := hFull.retires (by
      unfold Timetable.instruction
      rw [Timetable.machine_after]
      exact hBrief n hRuns)
    rw [cycle_of_exited hValid hRun hExited, hRetired, hEnded.flushes, Machine.after_succ, hLast,
      Timetable.after_succ]
    change (Timetable.after n (Timetable.start c (c.machine program data))).retires + 1 = _
    change _ + 2 * 0 = 1 + n + 2 * (Machine.after n (c.machine program data)).flushes at hDecode
    rw [hRetires]
    omega
  · rw [hState.no_stalls hStart hBrief, build_eq]
    rfl

/-- A program whose sequential execution comes to its exit by brief instructions exits, and passes,
within so many cycles as it takes at full speed. -/
theorem run_brief (hSize : program.size < 0x40000000) {n : Nat}
    (hRuns : (c.machine program data).Runs n)
    (hSystem : (Machine.after n (c.machine program data)).instruction.kind = .system)
    {maxCycles : Option Int}
    (hBudget : ((n + 5 + 2 * (Machine.after n (c.machine program data)).flushes : Nat) : Int) ≤
      maxCycles.getD c.maxCycles) :
    ∃ s, (loaded c program data).run maxCycles = (.ok (), s) ∧ s.status = .exited ∧
      s.report.passed = true ∧ s.pipeline.retired = n + 1 ∧
      s.pipeline.registers = (Machine.after (n + 1) (c.machine program data)).registers ∧
      s.pipeline.flushes = (Machine.after n (c.machine program data)).flushes ∧
      s.cycle = n + 5 + 2 * (Machine.after n (c.machine program data)).flushes ∧
      s.pipeline.stalls = [] := by
  have hEnds : ending (Machine.after n (c.machine program data)).instruction.kind ≠ none := by
    rw [hSystem]
    nofun
  -- a budget that is large enough for any program of so many instructions, to begin with
  have hEnough : ((c.patience * (n + 2) : Nat) : Int) ≤
      (some ((c.patience * (n + 2) : Nat) : Int)).getD c.maxCycles := Int.le_refl _
  obtain ⟨s, hRun, hEnd, hTime, hReached, hCompared⟩ := run_finishes hValid hSize
    ((hValid.inStep hSize data).exact_of_brief hBrief hRuns (Nat.le_refl _)) hEnds hEnough
  obtain ⟨-, hExited, hRetired⟩ := (hReached.ends_at hRuns hEnds hEnd hTime).resolve_right
    fun hIllegal => nomatch hSystem.symm.trans hIllegal.1
  obtain ⟨k, hRuns', hSystem', hRetired', hEnded⟩ := hReached.exit hExited
  obtain rfl : k = n := by omega
  have hFlushes : s.pipeline.flushes = (Machine.after k (c.machine program data)).flushes := by
    rw [hEnded.flushes, Machine.after_succ,
      Machine.flushes_of_ending ((hValid.sound_machine program data).after k) hEnds]
  obtain ⟨hCycle, hStalls⟩ := run_full_speed hValid hBrief hRun hExited
  have hCycles : s.cycle = k + 5 + 2 * (Machine.after k (c.machine program data)).flushes := by
    rw [hCycle, hRetired, hFlushes]
  have hClean : s.correctnessFaults = [] :=
    List.filter_eq_nil_iff.mpr fun f hHeld => by simpa using hCompared.faults_clean f hHeld
  refine ⟨s, run_of_ended ?_ ?_ hRun hTime ?_, hExited, ?_, hRetired, hEnded.registers, hFlushes,
    hCycles, hStalls⟩
  · rw [loaded_pipeline]
    exact inTime_build hValid program data
  · unfold status
    rw [loaded_pipeline, build_eq]
    rfl
  · rw [loaded_config, hCycles]
    exact hBudget
  · unfold Report.passed Simulator.report
    dsimp only
    rw [hClean, show s.pipeline.status = .exited from hExited]
    rfl

end FullSpeed

end Simulator

end AccelPipe

import AccelPipe.Proofs.Memory.Conflicts
import AccelPipe.Proofs.Pipeline.Commits

/-! What a tick writes on the channels of a run: counters, coverage, faults, trace and commits. The
stages report flushes, prefetched words and bank conflicts at once; stalls and commits are counted
at the end of the tick. -/
namespace AccelPipe.Pipeline

/-- The stages of a tick report on the way from `p` to `q`. The stalls are still to be counted. -/
structure Reported (p : Pipeline) (stalls : List StallCause) (q : Pipeline) : Prop where
  cycle : q.cycle = p.cycle
  kinds : q.coverage.kinds = p.coverage.kinds
  paths : ∀ path, path ≠ .branchFlush → path ≠ .prefetchHit →
    q.coverage.hitsOf path = p.coverage.hitsOf path
  flushes : q.coverage.hitsOf .branchFlush + p.flushes = p.coverage.hitsOf .branchFlush + q.flushes
  prefetched : q.coverage.hitsOf .prefetchHit + p.memory.prefetchHits =
    p.coverage.hitsOf .prefetchHit + q.memory.prefetchHits
  /-- Every stall for a bank is a fault and at least one conflict. -/
  faults : ∃ log, q.faults = p.faults ++ log ∧
    (∀ f ∈ log, f.kind = .bankConflict ∧ f.cycle = p.cycle) ∧
    log.length = stalls.count .bankConflict ∧ p.memory.conflicts + log.length ≤ q.memory.conflicts
  known : p.coverage.Known → q.coverage.Known

namespace Reported

variable {p q r : Pipeline} {stalls stalls' : List StallCause}

/-- Nothing is reported as long as only slots, units and fetching go on. -/
theorem of_silent (hCycle : q.cycle = p.cycle) (hCoverage : q.coverage = p.coverage)
    (hFlushes : q.flushes = p.flushes) (hHits : q.memory.prefetchHits = p.memory.prefetchHits)
    (hFaults : q.faultLog = p.faultLog) (hConflicts : p.memory.conflicts ≤ q.memory.conflicts)
    (hStalls : stalls.count .bankConflict = 0) : Reported p stalls q where
  cycle := hCycle
  kinds := by rw [hCoverage]
  paths := fun _ _ _ => by rw [hCoverage]
  flushes := by rw [hCoverage, hFlushes]
  prefetched := by rw [hCoverage, hHits]
  faults := ⟨[], by simp [Pipeline.faults, hFaults], by simp, by simp [hStalls], by simpa using hConflicts⟩
  known := fun hKnown => by rwa [hCoverage]

theorem trans (h : Reported p stalls q) (h' : Reported q stalls' r) :
    Reported p (stalls ++ stalls') r where
  cycle := h'.cycle.trans h.cycle
  kinds := h'.kinds.trans h.kinds
  paths := fun path hFlush hHit => (h'.paths path hFlush hHit).trans (h.paths path hFlush hHit)
  flushes := by
    have hFirst := h.flushes
    have hSecond := h'.flushes
    omega
  prefetched := by
    have hFirst := h.prefetched
    have hSecond := h'.prefetched
    omega
  faults := by
    obtain ⟨log, hLog, hKinds, hLength, hConflicts⟩ := h.faults
    obtain ⟨log', hLog', hKinds', hLength', hConflicts'⟩ := h'.faults
    refine ⟨log ++ log', ?_, ?_, ?_, ?_⟩
    · rw [hLog', hLog, List.append_assoc]
    · intro f hHeld
      rcases List.mem_append.mp hHeld with hOld | hNew
      · exact hKinds f hOld
      · exact ⟨(hKinds' f hNew).1, (hKinds' f hNew).2.trans h.cycle⟩
    · rw [List.length_append, List.count_append]
      omega
    · rw [List.length_append]
      omega
  known := fun hKnown => h'.known (h.known hKnown)

/-- A slot that has to wait for banks is a fault. -/
theorem bankConflict {memory : Memory} (hHits : memory.prefetchHits = p.memory.prefetchHits)
    (hConflicts : p.memory.conflicts < memory.conflicts) (s : Slot) (ins : Instruction)
    (banks : List Nat) :
    Reported p [.bankConflict] ({ p with memory }.bankConflict s ins banks).pipeline where
  cycle := rfl
  kinds := rfl
  paths := fun _ _ _ => rfl
  flushes := rfl
  prefetched := congrArg (fun n : Nat => p.coverage.hitsOf .prefetchHit + (n : Int)) hHits.symm
  faults := by
    refine ⟨[⟨.bankConflict, p.cycle, s.pc, _⟩], List.reverse_cons, fun f hHeld => ?_, rfl,
      hConflicts⟩
    rw [List.mem_singleton.mp hHeld]
    exact ⟨rfl, rfl⟩
  known := id

end Reported

/-! The stages, one after the other. -/

/-- An access that has been granted reports no more than a prefetched word. -/
theorem Access.reported {p q : Pipeline} {s : Slot} {addr : Int} {isLoad : Bool} {left : Nat}
    (h : Access p s addr isLoad q left) : Reported p [] q := by
  cases h with
  | goesOn => exact .of_silent rfl rfl rfl rfl rfl (Nat.le_refl _) rfl
  | begins _ hBegin =>
      unfold begunAccess at hBegin
      dsimp only at hBegin
      rcases p.memory.begin_cases addr p.cycle isLoad with hHit | ⟨hSame, hConflicts⟩
      · rw [hHit, if_neg (by simp)] at hBegin
        obtain ⟨-, rfl⟩ := Prod.mk.inj hBegin
        refine ⟨rfl, rfl, fun path _ hOther => ?_, ?_, ?_, ⟨[],
          (List.append_nil _).symm, by simp, rfl, Nat.le_refl _⟩, fun hKnown => hKnown.hit _ _ _⟩
        · exact (Coverage.hitsOf_hitPath _ _ _ _).trans (by simp [Ne.symm hOther])
        · change (p.coverage.hitPath .prefetchHit p.cycle).hitsOf _ + _ = _
          simp [covered]
        · change (p.coverage.hitPath .prefetchHit p.cycle).hitsOf _ + _ = _
          simp [covered]
          omega
      · rw [if_pos hSame] at hBegin
        obtain ⟨-, rfl⟩ := Prod.mk.inj hBegin
        exact .of_silent rfl rfl rfl hSame rfl hConflicts rfl

theorem MemoryMove.reported {p : Pipeline} {s : Slot} {ins : Instruction} {step : StageStep}
    (h : MemoryMove p s ins step) (hEven : p.memory.Even) :
    Reported p step.stalls step.pipeline := by
  cases h with
  | passes => exact .of_silent rfl rfl rfl rfl rfl (Nat.le_refl _) rfl
  | refused hKind hAddr hStarted hBegin =>
      unfold begunAccess at hBegin
      dsimp only at hBegin
      rcases hBegun : p.memory.begin _ p.cycle _ with ⟨ticks, memory⟩
      rw [hBegun] at hBegin
      obtain ⟨rfl, hIs⟩ := Prod.mk.inj hBegin
      obtain ⟨hHits, hConflicts⟩ := Memory.begin_conflict hEven hBegun
      rw [if_pos hHits] at hIs
      subst hIs
      exact .bankConflict hHits hConflicts _ _ _
  | waits hKind hAddr hAccess => exact hAccess.reported
  | loads hKind hAddr hAccess =>
      exact hAccess.reported.trans (.of_silent rfl rfl rfl (Memory.prefetchHits_completeLoad _ _) rfl
        (Nat.le_of_eq (Memory.conflicts_completeLoad _ _).symm) rfl)
  | stores hKind hAddr hValue hAccess =>
      exact hAccess.reported.trans (.of_silent rfl rfl rfl rfl rfl
        (Nat.le_of_eq (Memory.conflicts_poke _ _ _).symm) rfl)

theorem Burst.reported {p : Pipeline} {ins : Instruction} {ops : Operands} {mem : Option Slot}
    {m : Memory} (h : Burst p ins ops mem m) :
    m.prefetchHits = p.memory.prefetchHits ∧ p.memory.conflicts ≤ m.conflicts := by
  cases h with
  | idle => exact ⟨rfl, Nat.le_refl _⟩
  | taken =>
      obtain ⟨hConflicts, hHits⟩ := p.memory.reserveBurst_counts _ _ _
      exact ⟨hHits, hConflicts⟩

theorem ExecuteMove.reported {p : Pipeline} {s : Slot} {ins : Instruction} {mem : Option Slot}
    {f : Hazard.Forwarding} {step : StageStep} (h : ExecuteMove p s ins mem f step) :
    Reported p step.stalls step.pipeline := by
  cases h with
  | advances => exact .of_silent rfl rfl rfl rfl rfl (Nat.le_refl _) rfl
  | unready => exact .of_silent rfl rfl rfl rfl rfl (Nat.le_refl _) rfl
  | ordered => exact .of_silent rfl rfl rfl rfl rfl (Nat.le_refl _) rfl
  | blocked hStarted hReady hKind hBlocked =>
      obtain ⟨-, hHits⟩ := p.memory.reserveBurst_counts _ _ _
      exact .bankConflict hHits (Memory.reserveBurst_conflict hBlocked) _ _ _
  | starts hStarted hReady hBurst =>
      obtain ⟨hHits, hConflicts⟩ := hBurst.reported
      exact .of_silent rfl rfl rfl hHits rfl hConflicts rfl

theorem MemoryRound.reported {p : Pipeline} {ins : Instruction} {slot : Option Slot} {m : Making}
    {free : Bool} (h : MemoryRound p ins slot m free) (hEven : p.memory.Even) :
    Reported p m.stalls m.pipeline := by
  cases h with
  | empty => exact .of_silent rfl rfl rfl rfl rfl (Nat.le_refl _) rfl
  | moves hMove => exact hMove.reported hEven

theorem ExecuteRound.reported {p : Pipeline} {m m' : Making} {ins : Instruction} {cur : Slots}
    {free free' : Bool} {control : Control} {ex : Option Slot}
    (h : ExecuteRound m ins cur free ex m' free' control) (hBefore : Reported p m.stalls m.pipeline) :
    Reported p m'.stalls m'.pipeline := by
  cases h with
  | empty => exact hBefore
  | moves hMove => exact hBefore.trans hMove.reported

/-- Decode never waits for a bank. -/
theorem decodeReason_ne {cur : Slots} {memoryFree : Bool} {s : Slot} {reason : Option StallCause}
    (h : decodeReason cur memoryFree s = .ok reason) : reason ≠ some .bankConflict := by
  unfold decodeReason at h
  rcases Hazard.decodeStall_cases h with rfl | ⟨-, rfl | ⟨rfl, -⟩⟩ <;> nofun

theorem DecodeRound.reported {p : Pipeline} {m m' : Making} {cur : Slots}
    {memoryFree executeFree free : Bool} {control : Control} {id : Option Slot}
    (h : DecodeRound m cur memoryFree executeFree control id m' free)
    (hBefore : Reported p m.stalls m.pipeline) : Reported p m'.stalls m'.pipeline := by
  cases h with
  | empty => exact hBefore
  | moves => exact hBefore
  | @waits s reason hReason hStays =>
      have hNot := decodeReason_ne hReason
      refine hBefore.trans (.of_silent rfl rfl rfl rfl rfl (Nat.le_refl _) ?_)
      split
      · cases reason with
        | none => rfl
        | some cause => cases cause <;> first | rfl | exact absurd rfl hNot
      · rfl
  | flushed => exact hBefore

/-- A jump is a flush. -/
theorem Reported.madeFetch {p : Pipeline} {m : Making} (h : Reported p m.stalls m.pipeline)
    (slot : Option Slot) (free : Bool) (control : Control) :
    Reported p (madeFetch m slot free control).stalls (madeFetch m slot free control).pipeline := by
  unfold Pipeline.madeFetch followOn
  cases control with
  | redirect target =>
      refine ⟨h.cycle, h.kinds, fun path hFlush hHit => ?_, ?_, ?_, h.faults,
        fun hKnown => (h.known hKnown).hit _ _ _⟩
      · refine (Coverage.hitsOf_hitPath _ _ _ _).trans ?_
        rw [if_neg (Ne.symm hFlush), Int.add_zero]
        exact h.paths path hFlush hHit
      · have hBefore := h.flushes
        have hOne := Coverage.hitsOf_hitPath m.pipeline.coverage .branchFlush .branchFlush
          m.pipeline.cycle
        rw [if_pos rfl] at hOne
        dsimp only [fetchFrom, covered]
        omega
      · have hBefore := h.prefetched
        have hNone := Coverage.hitsOf_hitPath m.pipeline.coverage .branchFlush .prefetchHit
          m.pipeline.cycle
        rw [if_neg (by decide)] at hNone
        dsimp only [fetchFrom, covered]
        omega
  | stop => exact ⟨h.cycle, h.kinds, h.paths, h.flushes, h.prefetched, h.faults, h.known⟩
  | goOn =>
      cases slot with
      | none => exact h
      | some s =>
          dsimp only
          split
          · exact h
          · split
            · exact ⟨h.cycle, h.kinds, h.paths, h.flushes, h.prefetched, h.faults, h.known⟩
            · exact h

end AccelPipe.Pipeline

namespace AccelPipe

open Pipeline

/-- The stages of a tick, taken together. -/
theorem Round.reported {a : Machine} {p : Pipeline} {m₁ m₂ m₃ : Making} {free₁ free₂ free₃ : Bool}
    {control : Control} {commit : Option Commit}
    (h : Round p a m₁ m₂ m₃ free₁ free₂ free₃ control commit)
    (hFollows : Follows a p p.registers p.slots) :
    Reported p (madeFetch m₃ p.slots.fetch free₃ control).stalls
      (madeFetch m₃ p.slots.fetch free₃ control).pipeline := by
  have hMemory := h.memory.reported hFollows.back.rear.soundMemory.toEven
  have hAll := (h.decode.reported (h.execute.reported hMemory)).madeFetch p.slots.fetch free₃ control
  exact ⟨hAll.cycle, hAll.kinds, hAll.paths, hAll.flushes, hAll.prefetched, hAll.faults, hAll.known⟩

end AccelPipe

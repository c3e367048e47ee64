import AccelPipe.Proofs.Pipeline.Logs

/-! All that a tick can do to memory, units and faults, whatever its slots hold and however it ends.
What every tick of every pipeline keeps is shown by induction on it. -/
namespace AccelPipe.Pipeline

/-- Faults have been added, and none of them tells of a timeout. -/
def AddsFaults (p q : Pipeline) : Prop :=
  ∃ log, q.faultLog = log ++ p.faultLog ∧ ∀ f ∈ log, f.kind ≠ .timeout

namespace AddsFaults

variable {p q r : Pipeline}

theorem of_eq (h : q.faultLog = p.faultLog) : AddsFaults p q := ⟨[], h, nofun⟩

theorem trans (h : AddsFaults p q) (h' : AddsFaults q r) : AddsFaults p r := by
  obtain ⟨log, hLog, hKinds⟩ := h
  obtain ⟨log', hLog', hKinds'⟩ := h'
  refine ⟨log' ++ log, by rw [hLog', hLog, List.append_assoc], fun f hHeld => ?_⟩
  rcases List.mem_append.mp hHeld with hNew | hOld
  · exact hKinds' f hNew
  · exact hKinds f hOld

/-- Where no fault that is added is a timeout, none is on record behind it. -/
theorem untimed (h : AddsFaults p q) (hBefore : ∀ f ∈ p.faultLog, f.kind ≠ .timeout) :
    ∀ f ∈ q.faultLog, f.kind ≠ .timeout := by
  obtain ⟨log, hLog, hKinds⟩ := h
  intro f hHeld
  rw [hLog] at hHeld
  rcases List.mem_append.mp hHeld with hNew | hOld
  · exact hKinds f hNew
  · exact hBefore f hOld

end AddsFaults

/-- Nothing has happened but bookkeeping: memory has its words and the units are as they were. The
cycle has not ended, and no fault tells of a timeout. -/
structure Noted (p q : Pipeline) : Prop where
  units : q.units = p.units
  words : p.memory.SameWords q.memory
  sound : p.memory.Sound → q.memory.Sound
  cycle : q.cycle = p.cycle
  status : q.status = p.status
  faults : AddsFaults p q

/-- What the stages of a tick can make of a pipeline. Besides bookkeeping, they store words, which
the convolution unit is shown, and let units execute with words as memory has them. -/
inductive Touched (p : Pipeline) : Pipeline → Prop
  | refl : Touched p p
  | noted {q r : Pipeline} (h : Touched p q) (hNoted : Noted q r) : Touched p r
  | stored {q : Pipeline} (h : Touched p q) (addr value : Int) :
      Touched p { q with
        memory := q.memory.poke addr value, units := q.units.snoop (q.memory.wrap addr) }
  | executed {q : Pipeline} (h : Touched p q) (acc : Accelerator) (ins : Instruction)
      (ops : Operands) :
      Touched p { q with
        units := (q.units.execute acc ins ops
          (q.memory.readBlock (q.units.reads acc ins ops))).2 }

/-- The end of a tick: the cycle is over, and perhaps the run is too, but no fault tells of a
timeout. -/
structure Concluded (p q : Pipeline) : Prop where
  units : q.units = p.units
  words : p.memory.SameWords q.memory
  sound : p.memory.Sound → q.memory.Sound
  cycle : q.cycle = p.cycle + 1
  status : p.status ≠ .timeout → q.status ≠ .timeout
  faults : AddsFaults p q

namespace Noted

variable {p q r : Pipeline}

theorem of_eq (hUnits : q.units = p.units) (hMemory : q.memory = p.memory)
    (hCycle : q.cycle = p.cycle) (hStatus : q.status = p.status)
    (hFaults : q.faultLog = p.faultLog) : Noted p q where
  units := hUnits
  words := hMemory ▸ Memory.SameWords.refl _
  sound := hMemory ▸ id
  cycle := hCycle
  status := hStatus
  faults := .of_eq hFaults

theorem trans (h : Noted p q) (h' : Noted q r) : Noted p r where
  units := h'.units.trans h.units
  words := h.words.trans h'.words
  sound := h'.sound ∘ h.sound
  cycle := h'.cycle.trans h.cycle
  status := h'.status.trans h.status
  faults := h.faults.trans h'.faults

/-- A conflict adds a fault and a hit. -/
theorem bankConflict (h : Noted p q) (s : Slot) (ins : Instruction) (banks : List Nat) :
    Noted p (q.bankConflict s ins banks).pipeline where
  units := h.units
  words := h.words
  sound := h.sound
  cycle := h.cycle
  status := h.status
  faults := h.faults.trans ⟨[_], rfl, by simp⟩

/-- Only ports and banks are touched. -/
theorem ofMemory {memory : Memory} (hWords : p.memory.SameWords memory)
    (hSound : p.memory.Sound → memory.Sound) : Noted p { p with memory } :=
  ⟨rfl, hWords, hSound, rfl, rfl, .of_eq rfl⟩

end Noted

/-- Beginning an access changes memory and coverage only. -/
theorem noted_begunAccess (p : Pipeline) (addr : Int) (isLoad : Bool) :
    Noted p (p.begunAccess addr isLoad).2 := by
  have hWords := Memory.sameWords_begin p.memory addr p.cycle isLoad
  have hMemory : Noted p { p with memory := (p.memory.begin addr p.cycle isLoad).2 } :=
    .ofMemory hWords fun h => h.begin addr p.cycle isLoad
  unfold begunAccess
  dsimp only
  split
  · exact hMemory
  · exact ⟨rfl, hWords, hMemory.sound, rfl, rfl, hMemory.faults⟩

/-- So does a burst. -/
theorem noted_burst (p : Pipeline) (acc : Accelerator) (ins : Instruction) (ops : Operands) :
    Noted p { p with memory := (p.burst acc ins ops).2 } := by
  unfold burst
  split
  · exact .of_eq rfl rfl rfl rfl rfl
  · exact .ofMemory (Memory.sameWords_reserveBurst _ _ _ _) fun h => h.reserveBurst _ _ _

/-- Decode changes slots only. -/
theorem makeDecode_pipeline {m m' : Making} {cur : Slots} {memoryFree executeFree free : Bool}
    {control : Control}
    (hOk : makeDecode m cur memoryFree executeFree control = .ok (m', free)) :
    m'.pipeline = m.pipeline := by
  unfold makeDecode at hOk
  split at hOk
  · cases hOk
    rfl
  · obtain ⟨_, -, hOk⟩ := bind_ok hOk
    dsimp only at hOk
    split at hOk <;> cases hOk <;> rfl
  · cases hOk
    rfl

/-- Fetch changes its counters only. -/
theorem noted_madeFetch (m : Making) (slot : Option Slot) (decodeFree : Bool) (control : Control) :
    Noted m.pipeline (madeFetch m slot decodeFree control).pipeline := by
  have hSame : Noted m.pipeline m.pipeline := .of_eq rfl rfl rfl rfl rfl
  unfold madeFetch followOn
  cases control with
  | redirect target => exact .of_eq rfl rfl rfl rfl rfl
  | stop => exact .of_eq rfl rfl rfl rfl rfl
  | goOn =>
      cases slot with
      | none => exact hSame
      | some s =>
          dsimp only
          split
          · exact hSame
          · split
            · exact .of_eq rfl rfl rfl rfl rfl
            · exact hSame

/-- A comparison changes the reference machine and the record of faults. -/
theorem noted_compare (p : Pipeline) (c : Commit) : Noted p (p.compare c).2 := by
  have hCompare := compare_eq p c
  rcases hCompared : compared p.reference c with ⟨result, reference⟩
  rw [hCompared] at hCompare
  cases result with
  | error f =>
      dsimp only at hCompare
      rw [hCompare]
      exact .of_eq rfl rfl rfl rfl rfl
  | ok mismatches =>
      dsimp only at hCompare
      rw [hCompare]
      refine ⟨rfl, .refl _, id, rfl, rfl, ⟨_, rfl, fun f hHeld => ?_⟩⟩
      rw [(mismatchFaults_spec hHeld).1]
      nofun

/-- Retiring an instruction does not touch the memory or the units. -/
theorem noted_retire (p : Pipeline) (c : Commit) : Noted p (p.retire c).2 := by
  unfold retire
  split
  · exact ⟨rfl, .refl _, id, rfl, rfl, ⟨[_], rfl, by simp⟩⟩
  · have hCount : Noted p (p.counted c) := by
      refine ⟨rfl, .refl _, id, rfl, rfl, ⟨_, rfl, fun f hHeld => ?_⟩⟩
      rw [((clampFaults_spec p.cycle c).1 f hHeld).1]
      nofun
    have hCompared := hCount.trans (noted_compare (p.counted c) c)
    rw [count_eq]
    dsimp only
    rcases hCompare : (p.counted c).compare c with ⟨result, q⟩
    rw [hCompare] at hCompared
    cases result with
    | error f => exact hCompared
    | ok u => exact hCompared.trans (.of_eq rfl rfl rfl rfl rfl)

namespace Concluded

variable {p q : Pipeline}

/-- The stages of a tick begin with the pipeline running. -/
theorem ofNoted (h : Noted { p with cycle := p.cycle + 1 } q) : Concluded p q where
  units := h.units
  words := h.words
  sound := h.sound
  cycle := h.cycle
  status := fun hTime => h.status ▸ hTime
  faults := h.faults

/-- A run that ends with an instruction does not time out. -/
theorem finishWith (h : Concluded p q) (c : Commit) : Concluded p (q.finishWith c) := by
  rw [finishWith_eq]
  refine ⟨h.units, h.words, h.sound, h.cycle, fun hTime => ?_, h.faults⟩
  dsimp only
  unfold statusAfter
  cases hKind : c.ins.kind with
  | system | illegal => nofun
  | _ => exact h.status hTime

end Concluded

/-- Whatever is committed, and whether that fails or not. -/
theorem concluded_commitPoint (m : Making) (cur : Slots) (commit : Option Commit) :
    Concluded m.pipeline (commitPoint m cur commit).2 := by
  rw [commitPoint_eq]
  cases commit with
  | none =>
      exact .ofNoted (.of_eq rfl rfl rfl rfl rfl)
  | some c =>
      dsimp only
      have hClosed : Noted { m.pipeline with cycle := m.pipeline.cycle + 1 }
          { (closed m cur (some c)).writeBack c with
            cycle := ((closed m cur (some c)).writeBack c).cycle + 1 } := by
        rw [writeBack_eq]
        exact .of_eq rfl rfl rfl rfl rfl
      have hRetired := hClosed.trans (noted_retire _ c)
      split
      · rename_i hRetire
        rw [hRetire] at hRetired
        exact .ofNoted hRetired
      · rename_i hRetire
        rw [hRetire] at hRetired
        exact (Concluded.ofNoted hRetired).finishWith c

namespace Touched

variable {p q r : Pipeline}

theorem ofNoted (h : Noted p q) : Touched p q := .noted .refl h

theorem trans (h : Touched p q) (h' : Touched q r) : Touched p r := by
  induction h' with
  | refl => exact h
  | noted _ hNoted ih => exact ih.noted hNoted
  | stored _ addr value ih => exact ih.stored addr value
  | executed _ acc ins ops ih => exact ih.executed acc ins ops

/-! One lemma for each stage. -/

section Stages

variable {s : Slot} {ins : Instruction} {mem wb : Option Slot} {addr : Int} {isLoad : Bool}
  {step : StageStep}

/-- Completing an access only writes a word, if anything. -/
theorem completeAccess (hOk : p.completeAccess s addr isLoad = .ok step) :
    Touched p step.pipeline := by
  unfold Pipeline.completeAccess at hOk
  split at hOk
  · cases hOk
    exact ofNoted (.ofMemory (Memory.sameWords_completeLoad _ _) fun h => h.completeLoad _)
  · split at hOk
    · cases hOk
    · cases hOk
      exact .stored .refl addr _

/-- Nor does going on with one. -/
theorem continueAccess (hOk : p.continueAccess s addr isLoad = .ok step) :
    Touched p step.pipeline := by
  unfold Pipeline.continueAccess at hOk
  dsimp only at hOk
  split at hOk
  · cases hOk
    exact .refl
  · exact completeAccess hOk

/-- The stage of Memory changes nothing but memory, its coverage and its faults. -/
theorem memoryStage (hOk : p.memoryStage s = .ok step) : Touched p step.pipeline := by
  unfold Pipeline.memoryStage at hOk
  obtain ⟨ins, -, hOk⟩ := bind_ok hOk
  split at hOk
  · cases hOk
    exact .refl
  · dsimp only at hOk
    split at hOk
    · cases hOk
    · rename_i addr _
      split at hOk
      · exact continueAccess hOk
      · rw [beginAccess_eq, ok_bind] at hOk
        have hNoted := noted_begunAccess p addr (ins.kind == .load)
        rcases hBegin : p.begunAccess addr (ins.kind == .load) with ⟨ticks, q⟩
        rw [hBegin] at hNoted hOk
        cases ticks with
        | none =>
            cases hOk
            exact ofNoted (hNoted.bankConflict _ _ _)
        | some ticks => exact (ofNoted hNoted).trans (continueAccess hOk)

/-- An accelerator changes its unit and the ports that it takes. -/
theorem issueAccelerator {acc : Accelerator} (hOk : p.issueAccelerator s ins acc mem = .ok step) :
    Touched p step.pipeline := by
  have hNoted := p.noted_burst acc ins s.operands
  rw [issueAccelerator_eq] at hOk
  obtain ⟨_, -, hOk⟩ := bind_ok hOk
  split at hOk
  · cases hOk
    exact .refl
  · split at hOk
    · cases hOk
      exact ofNoted (hNoted.bankConflict _ _ _)
    · obtain ⟨_, -, hOk⟩ := bind_ok hOk
      cases hOk
      exact (ofNoted hNoted).executed acc ins s.operands

/-- Issuing an instruction does as well. -/
theorem issue (hOk : p.issue s ins mem = .ok step) : Touched p step.pipeline := by
  unfold Pipeline.issue at hOk
  dsimp only at hOk
  split at hOk
  · obtain ⟨_, -, hOk⟩ := bind_ok hOk
    cases hOk
    exact .refl
  · obtain ⟨_, -, hOk⟩ := bind_ok hOk
    cases hOk
    exact .refl
  · obtain ⟨_, -, hOk⟩ := bind_ok hOk
    cases hOk
    exact .refl
  · obtain ⟨_, -, hOk⟩ := bind_ok hOk
    obtain ⟨_, -, hOk⟩ := bind_ok hOk
    cases hOk
    exact .refl
  · split at hOk
    · exact issueAccelerator hOk
    · cases hOk
      exact .refl

/-- The stage of Execute does as well. -/
theorem executeStage (hOk : p.executeStage s mem wb = .ok step) : Touched p step.pipeline := by
  unfold Pipeline.executeStage at hOk
  dsimp only at hOk
  split at hOk
  · cases hOk
    exact .refl
  · obtain ⟨ins, -, hOk⟩ := bind_ok hOk
    split at hOk
    · cases hOk
      exact .refl
    · obtain ⟨issued, hIssue, hOk⟩ := bind_ok hOk
      have hIssued := issue hIssue
      split at hOk
      · cases hOk
        exact hIssued
      · cases hOk
        exact hIssued

end Stages

/-! The same for the parts of a tick. -/

section Parts

variable {m m' : Making} {cur : Slots} {slot : Option Slot} {memoryFree executeFree free : Bool}
  {control : Control}

/-- With the slot that it moves on, Memory does no more than that. -/
theorem makeMemory (hOk : Pipeline.makeMemory m slot = .ok (m', free)) :
    Touched m.pipeline m'.pipeline := by
  unfold Pipeline.makeMemory at hOk
  split at hOk
  · cases hOk
    exact .refl
  · obtain ⟨step, hStage, hOk⟩ := bind_ok hOk
    cases hOk
    exact memoryStage hStage

/-- Nor does Execute. -/
theorem makeExecute (hOk : Pipeline.makeExecute m cur memoryFree = .ok (m', free, control)) :
    Touched m.pipeline m'.pipeline := by
  unfold Pipeline.makeExecute at hOk
  split at hOk
  · cases hOk
    exact .refl
  · obtain ⟨step, hStage, hOk⟩ := bind_ok hOk
    cases hOk
    exact executeStage hStage

/-- Nor do all stages together. -/
theorem make {commit : Option Commit} (hOk : p.make = .ok (m, commit)) :
    Touched { p with status := .running } m.pipeline := by
  unfold Pipeline.make at hOk
  dsimp only at hOk
  split at hOk
  · cases hOk
  · obtain ⟨_, -, hOk⟩ := bind_ok hOk
    obtain ⟨⟨m₁, memoryFree⟩, hMemory, hOk⟩ := bind_ok hOk
    obtain ⟨⟨m₂, executeFree, control⟩, hExecute, hOk⟩ := bind_ok hOk
    obtain ⟨⟨m₃, decodeFree⟩, hDecode, hOk⟩ := bind_ok hOk
    dsimp only at hOk
    rw [makeFetch_eq] at hOk
    cases hOk
    have hStages := (makeMemory hMemory).trans (makeExecute hExecute)
    rw [← makeDecode_pipeline hDecode] at hStages
    exact hStages.noted (noted_madeFetch _ _ _ _)

end Parts

/-! What a pipeline keeps. -/

theorem cycle (h : Touched p q) : q.cycle = p.cycle := by
  induction h with
  | refl => rfl
  | noted _ hNoted ih => exact hNoted.cycle.trans ih
  | stored _ _ _ ih => exact ih
  | executed _ _ _ _ ih => exact ih

theorem status (h : Touched p q) : q.status = p.status := by
  induction h with
  | refl => rfl
  | noted _ hNoted ih => exact hNoted.status.trans ih
  | stored _ _ _ ih => exact ih
  | executed _ _ _ _ ih => exact ih

/-- Whatever a stage does, the memory stays sound. -/
theorem sound (h : Touched p q) (hSound : p.memory.Sound) : q.memory.Sound := by
  induction h with
  | refl => exact hSound
  | noted _ hNoted ih => exact hNoted.sound ih
  | stored _ addr value ih => exact ih.poke addr value
  | executed _ _ _ _ ih => exact ih

/-- Whatever a stage does, it adds faults at the end. -/
theorem faults (h : Touched p q) : AddsFaults p q := by
  induction h with
  | refl => exact .of_eq rfl
  | noted _ hNoted ih => exact ih.trans hNoted.faults
  | stored _ _ _ ih => exact ih
  | executed _ _ _ _ ih => exact ih

end Touched

/-- A tick fails before it has changed anything, or it comes to its end. -/
theorem tick_cases (p : Pipeline) :
    (∃ f, p.tick = (.error f, p)) ∨
      ∃ q, Touched { p with status := .running } q ∧ Concluded q p.tick.2 := by
  unfold tick
  split
  · exact .inl ⟨_, rfl⟩
  · rename_i hMake
    exact .inr ⟨_, Touched.make hMake, concluded_commitPoint _ _ _⟩

/-! What every tick of every pipeline keeps, and every run. -/

section

variable {p q : Pipeline}

/-- A tick keeps the memory sound, whether it fails or not. -/
theorem sound_tick (h : p.memory.Sound) : p.tick.2.memory.Sound := by
  rcases p.tick_cases with ⟨f, hFailed⟩ | ⟨q, hTouched, hConcluded⟩
  · rw [hFailed]
    exact h
  · exact hConcluded.sound (hTouched.sound h)

/-- A tick adds faults at the end, whether it fails or not, and none of them is a timeout. -/
theorem addsFaults_tick (p : Pipeline) : AddsFaults p p.tick.2 := by
  rcases p.tick_cases with ⟨f, hFailed⟩ | ⟨q, hTouched, hConcluded⟩
  · rw [hFailed]
    exact .of_eq rfl
  · have hStages : AddsFaults p q := (AddsFaults.of_eq rfl).trans hTouched.faults
    exact hStages.trans hConcluded.faults

/-- A tick takes one cycle, and if it ends the run, that is not for want of cycles. -/
theorem tick_ok (hTick : p.tick = (.ok (), q)) :
    q.cycle = p.cycle + 1 ∧ q.status ≠ .timeout := by
  rcases p.tick_cases with ⟨f, hFailed⟩ | ⟨r, hTouched, hConcluded⟩
  · cases hFailed.symm.trans hTick
  · rw [hTick] at hConcluded
    refine ⟨hConcluded.cycle.trans (congrArg (· + 1) hTouched.cycle), hConcluded.status ?_⟩
    rw [hTouched.status]
    nofun

end

end AccelPipe.Pipeline

namespace AccelPipe.Steps

open Pipeline

variable {p q : Pipeline}

/-- So does a run. -/
theorem sound (h : Steps p q) (hSound : p.memory.Sound) : q.memory.Sound := by
  induction h with
  | refl => exact hSound
  | tick _ _ hTick ih =>
      have hNext := sound_tick ih
      rw [hTick] at hNext
      exact hNext

theorem addsFaults (h : Steps p q) : AddsFaults p q := by
  induction h with
  | refl => exact .of_eq rfl
  | @tick q r _ _ hTick ih =>
      have hNext := q.addsFaults_tick
      rw [hTick] at hNext
      exact ih.trans hNext

/-- The clock of a run does not go back. -/
theorem cycle_le (h : Steps p q) : p.cycle ≤ q.cycle := by
  induction h with
  | refl => exact Nat.le_refl _
  | tick _ _ hTick ih =>
      rw [(tick_ok hTick).1]
      exact Nat.le_succ_of_le ih

/-- Ticks do not let a run time out. -/
theorem ne_timeout (h : Steps p q) (hRun : p.status.finished = false) : q.status ≠ .timeout := by
  cases h with
  | refl =>
      intro hTime
      rw [hTime] at hRun
      cases hRun
  | tick _ _ hTick => exact (tick_ok hTick).2

end AccelPipe.Steps


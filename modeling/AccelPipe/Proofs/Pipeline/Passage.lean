import AccelPipe.Proofs.Pipeline.Runs

/-! The passage of slots through the pipeline. A tick moves a slot on, lets it stay or drops it, and
adds at most one new slot in Fetch. So the numbers of the slots stay in order, from the slot that
was fetched last to the oldest commit, and every slot that has left Fetch is still under way, or has
retired, or was dropped by a flush or by the end of the run. -/
namespace AccelPipe

open Pipeline

/-- The number of a slot, if it is there. -/
def numberOf (slot : Option Slot) : List Nat := (slot.map (·.seq)).toList

/-- The numbers of the slots from Fetch to Writeback. -/
def Stages.numbers (slots : Slots) : List Nat := slots.toList.flatMap numberOf

/-- What a slot keeps from Fetch to Writeback: its address and its number. -/
def Slot.mark (s : Slot) : Int × Nat := (s.pc, s.seq)

/-- The mark of a slot, if it is there. -/
def markOf (slot : Option Slot) : List (Int × Nat) := (slot.map (·.mark)).toList

/-- The marks of the slots from Fetch to Writeback. -/
def Stages.marks (slots : Slots) : List (Int × Nat) := slots.toList.flatMap markOf

/-- How many slots have left Fetch and are under way. -/
def Stages.underWay (slots : Slots) : Nat :=
  slots.decode.isSome.toNat + slots.execute.isSome.toNat + slots.memory.isSome.toNat +
    slots.writeback.isSome.toNat

theorem Stages.marks_eq (slots : Slots) :
    slots.marks = markOf slots.fetch ++ (markOf slots.decode ++ (markOf slots.execute ++
      (markOf slots.memory ++ markOf slots.writeback))) := by
  simp [marks, Stages.toList]

theorem map_markOf (slot : Option Slot) : (markOf slot).map (·.2) = numberOf slot := by
  cases slot <;> rfl

theorem Stages.map_marks (slots : Slots) : slots.marks.map (·.2) = slots.numbers := by
  unfold marks numbers
  rw [List.map_flatMap]
  exact congrArg (slots.toList.flatMap ·) (funext map_markOf)

/-- All numbers, from the slot that was fetched last to the oldest commit. -/
def Pipeline.numbers (p : Pipeline) : List Nat := p.slots.numbers ++ p.commitLog.map (·.seq)

/-- The numbers are in order, and the next one is greater than all of them. -/
def Pipeline.Numbered (p : Pipeline) : Prop := ((p.seq + 1) :: p.numbers).Pairwise (· > ·)

namespace Pipeline

/-! No stage changes the mark of its slot. -/

section Stages

variable {p : Pipeline} {m m' : Making} {ins : Instruction} {cur : Slots}
  {free free₁ free₂ : Bool} {control : Control}

theorem MemoryMove.mark {s : Slot} {step : StageStep} (h : MemoryMove p s ins step) :
    step.slot.pc = s.pc ∧ step.slot.seq = s.seq := by
  cases h <;> exact ⟨rfl, rfl⟩

theorem ExecuteMove.mark {s : Slot} {mem : Option Slot} {f : Hazard.Forwarding} {step : StageStep}
    (h : ExecuteMove p s ins mem f step) : step.slot.pc = s.pc ∧ step.slot.seq = s.seq := by
  cases h <;> exact ⟨rfl, rfl⟩

theorem MemoryRound.marks {mem : Option Slot} (h : MemoryRound p ins mem m free) :
    m.next.marks = markOf mem ∧ m.next.underWay = mem.isSome.toNat := by
  cases h with
  | empty => exact ⟨rfl, rfl⟩
  | @moves s step hMove =>
      have hMark := hMove.mark
      cases step.done <;>
        simp [Stages.marks_eq, Stages.underWay, markOf, Slot.mark, Slots.bubbles, Slot.enter, hMark]

theorem ExecuteRound.marks {ex : Option Slot} (h : ExecuteRound m ins cur free₁ ex m' free₂ control)
    (hFree : free₁ = m.next.memory.isNone ∧ m.next.execute = none ∧ m.next.decode = none ∧
      m.next.fetch = none) :
    m'.next.marks = markOf ex ++ m.next.marks ∧
      m'.next.underWay = ex.isSome.toNat + m.next.underWay := by
  obtain ⟨hMemory, hExecute, hDecode, hFetch⟩ := hFree
  cases h with
  | empty => simp [markOf]
  | @moves s step hMove =>
      have hMark := hMove.mark
      cases hLeaves : (step.done && free₁) with
      | true =>
          obtain ⟨-, hEmpty⟩ := Bool.and_eq_true_iff.mp hLeaves
          rw [hEmpty] at hMemory
          have hNone := Option.isNone_iff_eq_none.mp hMemory.symm
          simp [Stages.marks_eq, Stages.underWay, markOf, Slot.mark, Slot.enter, hMark, hNone, hExecute,
            hDecode, hFetch]
      | false =>
          simp [Stages.marks_eq, Stages.underWay, markOf, Slot.mark, hMark, hExecute, hDecode, hFetch]
          omega

/-- Decode keeps its slot, or drops it if it is told so. -/
theorem DecodeRound.marks {id : Option Slot}
    (h : DecodeRound m cur free₁ free₂ control id m' free)
    (hFree : free₂ = m.next.execute.isNone) (hDecode : m.next.decode = none)
    (hFetch : m.next.fetch = none) :
    (control = .goOn → m'.next.marks = markOf id ++ m.next.marks ∧
      m'.next.underWay = id.isSome.toNat + m.next.underWay) ∧
    (control ≠ .goOn → m'.next = m.next) := by
  cases h with
  | empty => simp [markOf]
  | @moves s hExecuteFree hReason =>
      rw [hExecuteFree] at hFree
      have hNone := Option.isNone_iff_eq_none.mp hFree.symm
      refine ⟨fun _ => ?_, fun hNot => absurd rfl hNot⟩
      simp [Stages.marks_eq, Stages.underWay, markOf, Slot.mark, Slot.enter, reading, hNone, hDecode,
        hFetch]
      omega
  | waits =>
      refine ⟨fun _ => ?_, fun hNot => absurd rfl hNot⟩
      simp [Stages.marks_eq, Stages.underWay, markOf, Slot.mark, reading, hDecode, hFetch]
      omega
  | flushed hControl => exact ⟨fun hGoOn => absurd hGoOn hControl, fun _ => rfl⟩

end Stages

/-- Decode leaves Fetch alone, and is empty if it says so. -/
theorem DecodeRound.clear {m m' : Making} {cur : Slots} {free free₁ free₂ : Bool}
    {control : Control} {id : Option Slot} (h : DecodeRound m cur free₁ free₂ control id m' free)
    (hDecode : m.next.decode = none) (hFetch : m.next.fetch = none) :
    (free = true → m'.next.decode = none) ∧ m'.next.fetch = none := by
  cases h with
  | empty => exact ⟨fun _ => hDecode, hFetch⟩
  | moves => exact ⟨fun _ => hDecode, hFetch⟩
  | waits => exact ⟨nofun, hFetch⟩
  | flushed => exact ⟨fun _ => hDecode, hFetch⟩

/-- The address that Fetch takes up in a tick: the target of a jump, or the one that follows its slot,
which it has counted and handed on. -/
inductive TakenUp (fe : Option Slot) (before after : Nat) : Control → Int → Prop
  | redirect {target : Nat} (hCount : after = before) : TakenUp fe before after (.redirect target) target
  | onward {s : Slot} (hSlot : fe = some s) (hCount : after = before + 1) :
      TakenUp fe before after .goOn (s.pc + 4)

/-- Fetch adds one new slot at most, with the next number. -/
theorem madeFetch_marks (m : Making) (fe : Option Slot) {free : Bool} (control : Control)
    (hFree : free = true → m.next.decode = none) (hFetch : m.next.fetch = none) :
    let m' := madeFetch m fe free control
    (m'.pipeline.seq = m.pipeline.seq ∧ m'.pipeline.fetched = m.pipeline.fetched ∧
      m'.next.marks.Sublist (markOf fe ++ m.next.marks)) ∨
    (m'.pipeline.seq = m.pipeline.seq + 1 ∧ ∃ pc,
      TakenUp fe m.pipeline.fetched m'.pipeline.fetched control pc ∧
      m'.next.fetch.map (·.pc) = some pc ∧
      m'.next.marks.Sublist ((pc, m.pipeline.seq + 1) :: (markOf fe ++ m.next.marks))) := by
  unfold madeFetch followOn
  cases control with
  | redirect target =>
      refine .inr ⟨rfl, target, .redirect rfl, rfl, ?_⟩
      simp [fetchFrom, fetchSlot, covered, Stages.marks_eq, markOf, Slot.mark, hFetch]
  | stop => exact .inl ⟨rfl, rfl, List.sublist_append_right _ _⟩
  | goOn =>
      cases fe with
      | none => exact .inl ⟨rfl, rfl, List.sublist_append_right _ _⟩
      | some s =>
          dsimp only
          split
          · exact .inl ⟨rfl, rfl, List.sublist_append_right _ _⟩
          · cases free with
            | true =>
                refine .inr ⟨rfl, s.pc + 4, .onward rfl rfl, rfl, ?_⟩
                simp [fetchFrom, fetchSlot, Stages.marks_eq, markOf, Slot.mark, Slot.enter, hFetch,
                  hFree rfl]
            | false =>
                refine .inl ⟨rfl, rfl, ?_⟩
                simp [Stages.marks_eq, markOf, Slot.mark, hFetch]

/-- What Fetch counts is what it hands on. -/
theorem madeFetch_underWay (m : Making) (fe : Option Slot) {free : Bool} (control : Control)
    (hFree : free = true → m.next.decode = none) :
    (madeFetch m fe free control).pipeline.fetched + m.next.underWay =
      m.pipeline.fetched + (madeFetch m fe free control).next.underWay := by
  unfold madeFetch followOn
  cases control with
  | redirect target => rfl
  | stop => rfl
  | goOn =>
      cases fe with
      | none => rfl
      | some s =>
          dsimp only
          split
          · rfl
          · cases free with
            | true =>
                simp [fetchFrom, Stages.underWay, hFree rfl]
                omega
            | false => rfl

/-! The commit takes over the number of the slot in Writeback. -/

theorem commitOf_seq {p : Pipeline} {s : Slot} {c : Commit} (h : p.commitOf s = .ok c) :
    c.seq = s.seq := by
  unfold commitOf at h
  obtain ⟨ins, -, hRest⟩ := bind_ok h
  simp only [pure_bind] at hRest
  split at hRest
  · split at hRest
    · split at hRest
      · cases hRest
      · cases hRest
        rfl
    · cases hRest
  · split at hRest
    · cases hRest
    · cases hRest
      rfl

theorem make_commit {p : Pipeline} {m : Making} {commit : Option Commit}
    (h : p.make = .ok (m, commit)) :
    (commit.map (·.seq)).toList = numberOf p.slots.writeback := by
  unfold make at h
  split at h
  · cases h
  · obtain ⟨commit', hCommit, hRest⟩ := bind_ok h
    obtain ⟨_, -, hRest⟩ := bind_ok hRest
    obtain ⟨_, -, hRest⟩ := bind_ok hRest
    obtain ⟨_, -, hRest⟩ := bind_ok hRest
    obtain ⟨_, -, hDone⟩ := bind_ok hRest
    cases hDone
    cases hSlot : p.slots.writeback with
    | none =>
        rw [hSlot] at hCommit
        cases hCommit
        rfl
    | some s =>
        rw [hSlot] at hCommit
        obtain ⟨c, hIs, hSome⟩ := bind_ok hCommit
        cases hSome
        simp [numberOf, commitOf_seq hIs]

/-- The end of a tick: the log takes the commit at most, and the slots stay unless the run ends. A
comparison that fails makes no difference to that. -/
theorem commitPoint_log {m : Making} {cur : Slots} {commit : Option Commit}
    {result : Except Failure Unit} {q : Pipeline} (h : commitPoint m cur commit = (result, q)) :
    q.seq = m.pipeline.seq ∧ q.commitLog.Sublist (commit.toList ++ m.pipeline.commitLog) ∧
      (q.slots = m.next ∨ q.slots = .bubbles) := by
  cases commit with
  | none =>
      obtain ⟨q', hPoint, hRest, -⟩ := commitPoint_idle m cur
      rw [h] at hPoint
      cases hPoint
      rw [hRest]
      exact ⟨rfl, List.Sublist.refl _, .inl rfl⟩
  | some c =>
      by_cases hKind : c.ins.kind = .illegal
      · obtain ⟨q', f, hPoint, hRest, -⟩ := commitPoint_illegal m cur hKind
        rw [h] at hPoint
        cases hPoint
        rw [hRest]
        exact ⟨rfl, List.sublist_append_right _ _, .inr rfl⟩
      · have hPoint := commitPoint_legal m cur hKind
        rcases hCompared : compared m.pipeline.reference c with ⟨result, reference⟩
        rw [hCompared] at hPoint
        rcases result with f | mismatches
        · obtain ⟨q', hFails, hRest⟩ := hPoint
          rw [h] at hFails
          cases hFails
          rw [hRest]
          exact ⟨rfl, List.sublist_append_right _ _, .inl rfl⟩
        · obtain ⟨q', hOk, hRest, -⟩ := hPoint
          rw [h] at hOk
          cases hOk
          rw [hRest]
          refine ⟨rfl, List.Sublist.refl _, ?_⟩
          dsimp only
          unfold slotsAfter
          split
          · exact .inr rfl
          · exact .inl rfl

end Pipeline

/-- As long as Execute waits to start, there is a slot behind it in Decode: it came from there when
Fetch had the next one ready. -/
def Stages.Fed (slots : Slots) : Prop :=
  ∀ s, slots.execute = some s → s.started = false → slots.decode.isSome = true

/-- Every slot that has left Fetch is accounted for, with these slots under way. -/
def Pipeline.Balanced (p : Pipeline) (slots : Slots) : Prop :=
  p.fetched = p.retired + p.flushes + p.fetchStopped.toNat + slots.underWay

namespace Round

variable {a : Machine} {p q : Pipeline} {m₁ m₂ m₃ : Making} {free₁ free₂ free₃ : Bool}
  {control : Control} {commit : Option Commit}

/-- The slots of a tick before Decode. -/
theorem behind (h : Round p a m₁ m₂ m₃ free₁ free₂ free₃ control commit) :
    m₂.next.marks = markOf p.slots.execute ++ markOf p.slots.memory ∧
      m₂.next.underWay = p.slots.execute.isSome.toNat + p.slots.memory.isSome.toNat := by
  obtain ⟨hMarks, hCount⟩ := h.memory.marks
  obtain ⟨hAll, hMore⟩ := h.execute.marks h.memory.free
  rw [hAll, hMore, hMarks, hCount]
  exact ⟨rfl, rfl⟩

/-- The counters of a tick before Fetch are those at its beginning. -/
theorem counters (h : Round p a m₁ m₂ m₃ free₁ free₂ free₃ control commit)
    (hFollows : Follows a p p.registers p.slots) :
    m₃.pipeline.seq = p.seq ∧ m₃.pipeline.fetched = p.fetched ∧
      m₃.pipeline.flushes = p.flushes ∧ m₃.pipeline.fetchStopped = p.fetchStopped := by
  have hMoved := h.memory.moved.trans (h.settled hFollows).moved
  rw [← h.decode.pipeline] at hMoved
  rw [hMoved.rest]
  exact ⟨rfl, rfl, rfl, rfl⟩

/-- All marks after the stages of a tick were there before it, in this order, but for the one of the
slot that Fetch may have added. -/
theorem marks (h : Round p a m₁ m₂ m₃ free₁ free₂ free₃ control commit)
    (hFollows : Follows a p p.registers p.slots) :
    let m := madeFetch m₃ p.slots.fetch free₃ control
    let old := markOf p.slots.fetch ++
      (markOf p.slots.decode ++ (markOf p.slots.execute ++ markOf p.slots.memory))
    (m.pipeline.seq = p.seq ∧ m.pipeline.fetched = p.fetched ∧ m.next.marks.Sublist old) ∨
    (m.pipeline.seq = p.seq + 1 ∧ ∃ pc,
      TakenUp p.slots.fetch p.fetched m.pipeline.fetched control pc ∧
      m.next.fetch.map (·.pc) = some pc ∧ m.next.marks.Sublist ((pc, p.seq + 1) :: old)) := by
  intro m old
  obtain ⟨-, -, hExecuteFree, hNoDecode, hNoFetch, -⟩ := h.settled hFollows
  obtain ⟨hGoesOn, hDrops⟩ := h.decode.marks hExecuteFree hNoDecode hNoFetch
  obtain ⟨hClear, hStill⟩ := h.decode.clear hNoDecode hNoFetch
  obtain ⟨hSeq, hFetched, -⟩ := h.counters hFollows
  have hDecoded : (markOf p.slots.fetch ++ m₃.next.marks).Sublist old := by
    refine List.Sublist.append_left ?_ _
    rw [← h.behind.1]
    by_cases hControl : control = .goOn
    · simp [(hGoesOn hControl).1]
    · rw [hDrops hControl]
      exact List.sublist_append_right _ _
  have hMade := madeFetch_marks m₃ p.slots.fetch control hClear hStill
  rw [hSeq, hFetched] at hMade
  rcases hMade with ⟨hSame, hCount, hMarks⟩ | ⟨hNext, pc, hTaken, hHere, hMarks⟩
  · exact .inl ⟨hSame, hCount, hMarks.trans hDecoded⟩
  · exact .inr ⟨hNext, pc, hTaken, hHere, hMarks.trans (hDecoded.cons_cons _)⟩

/-- A tick keeps the numbers in order, however it ends. -/
theorem numbered (h : Round p a m₁ m₂ m₃ free₁ free₂ free₃ control commit)
    (hFollows : Follows a p p.registers p.slots) (hNumbered : p.Numbered) :
    p.tick.2.Numbered := by
  have hTick : commitPoint (madeFetch m₃ p.slots.fetch free₃ control) p.slots commit =
      (p.tick.1, p.tick.2) := h.tick_eq.symm
  obtain ⟨hSeq, hLog, hSlots⟩ := commitPoint_log hTick
  generalize p.tick.2 = q at hSeq hLog hSlots ⊢
  have hStaged := h.staged hFollows
  have hCommitted : (q.commitLog.map (·.seq)).Sublist
      (numberOf p.slots.writeback ++ p.commitLog.map (·.seq)) := by
    rw [← make_commit h.make, ← hStaged.commitLog]
    have hMapped := hLog.map (·.seq)
    cases commit <;> simpa using hMapped
  -- all that is numbered after the tick was numbered before, but for the slot that Fetch has added
  have hKept : ∀ front : List (Int × Nat),
      (madeFetch m₃ p.slots.fetch free₃ control).next.marks.Sublist
        (front ++ (markOf p.slots.fetch ++ (markOf p.slots.decode ++
          (markOf p.slots.execute ++ markOf p.slots.memory)))) →
      q.numbers.Sublist (front.map (·.2) ++ p.numbers) := by
    intro front hFront
    have hNow : q.slots.numbers.Sublist (front.map (·.2) ++ (numberOf p.slots.fetch ++
        (numberOf p.slots.decode ++ (numberOf p.slots.execute ++ numberOf p.slots.memory)))) := by
      rcases hSlots with hNext | hEnd
      · rw [hNext, ← Stages.map_marks]
        simpa [map_markOf] using hFront.map (·.2)
      · rw [hEnd]
        exact List.nil_sublist _
    have hAll := hNow.append hCommitted
    simpa [Pipeline.numbers, ← Stages.map_marks, Stages.marks_eq, map_markOf] using hAll
  unfold Numbered at hNumbered ⊢
  rw [hSeq]
  rcases h.marks hFollows with ⟨hSame, -, hFront⟩ | ⟨hNext, pc, -, -, hFront⟩
  · rw [hSame]
    exact hNumbered.sublist ((hKept [] hFront).cons_cons _)
  · rw [hNext]
    have hOrdered := hKept [(pc, p.seq + 1)] hFront
    refine List.pairwise_cons.mpr ⟨?_, hNumbered.sublist hOrdered⟩
    intro n hHeld
    rcases List.mem_cons.mp (hOrdered.subset hHeld) with rfl | hOld
    · exact Nat.lt_succ_self _
    · exact Nat.lt_succ_of_lt ((List.pairwise_cons.mp hNumbered).1 n hOld)

/-- An instruction tells those behind it something only when it starts. -/
theorem starts (h : Round p a m₁ m₂ m₃ free₁ free₂ free₃ control commit) :
    (control ≠ .goOn → ∃ s, p.slots.execute = some s ∧ s.started = false) ∧
      (∀ t, m₂.next.execute = some t → t.started = false →
        control = .goOn ∧ ∃ s, p.slots.execute = some s ∧ s.started = false) := by
  have hExecute := h.execute
  have hFree := h.memory.free
  cases hSlot : p.slots.execute with
  | none =>
      rw [hSlot] at hExecute
      cases hExecute with
      | empty =>
          refine ⟨fun hNot => absurd rfl hNot, fun t hHeld => ?_⟩
          rw [hFree.2.1] at hHeld
          cases hHeld
  | some s =>
      rw [hSlot] at hExecute
      cases hExecute with
      | @moves _ step hMove =>
          refine ⟨fun hNot => ⟨s, rfl, ?_⟩, fun t hHeld hFresh => ?_⟩
          · cases hStarted : s.started with
            | false => rfl
            | true => exact absurd (controlOf_started_before hStarted) hNot
          · dsimp only at hHeld
            split at hHeld
            · rw [hFree.2.1] at hHeld
              cases hHeld
            · obtain rfl := Option.some.inj hHeld
              exact ⟨controlOf_fresh hFresh, s, rfl, hMove.fresh hFresh⟩

/-- Whoever waits to start in Execute after a tick has a slot behind it. -/
theorem fed (h : Round p a m₁ m₂ m₃ free₁ free₂ free₃ control commit)
    (hFollows : Follows a p p.registers p.slots) (hFed : p.slots.Fed) :
    Stages.Fed (madeFetch m₃ p.slots.fetch free₃ control).next := by
  have hDecode := h.decode
  have hFilled := madeFetch_decode m₃ p.slots.fetch free₃ control
  rw [(h.counters hFollows).2.2.2, hFollows.front.live] at hFilled
  intro t hHeld hFresh
  rw [(madeFetch_next m₃ p.slots.fetch free₃ control).1] at hHeld
  -- a slot that was there before has kept the one behind it waiting
  have hOld : m₂.next.execute = some t → control = .goOn ∧ p.slots.decode.isSome = true := by
    intro hBefore
    obtain ⟨hGoOn, s, hSlot, hIs⟩ := h.starts.2 t hBefore hFresh
    exact ⟨hGoOn, hFed s hSlot hIs⟩
  cases hSlot : p.slots.decode with
  | none =>
      rw [hSlot] at hDecode hOld
      cases hDecode with
      | empty => cases (hOld hHeld).2
      | flushed hControl => exact absurd (hOld hHeld).1 hControl
  | some s =>
      have hRunning : p.fetchStopped = false := by
        cases hIs : p.fetchStopped with
        | false => rfl
        | true =>
            have hNone := hFollows.front.empty hIs
            rw [hSlot] at hNone
            cases hNone
      rw [hSlot] at hDecode
      cases hDecode with
      | moves => simpa [hRunning] using hFilled
      | waits => simpa using hFilled
      | flushed hControl => exact absurd (hOld hHeld).1 hControl

/-- What a flush or the end of the run drops is one slot in Decode, and it is counted as such. -/
theorem balanced (h : Round p a m₁ m₂ m₃ free₁ free₂ free₃ control commit)
    (hFollows : Follows a p p.registers p.slots) (hFed : p.slots.Fed)
    (hBalanced : p.Balanced p.slots) :
    (madeFetch m₃ p.slots.fetch free₃ control).pipeline.fetched =
      p.retired + p.slots.writeback.isSome.toNat +
        (madeFetch m₃ p.slots.fetch free₃ control).pipeline.flushes +
        (madeFetch m₃ p.slots.fetch free₃ control).pipeline.fetchStopped.toNat +
        Stages.underWay (madeFetch m₃ p.slots.fetch free₃ control).next := by
  obtain ⟨-, -, hExecuteFree, hNoDecode, hNoFetch, -⟩ := h.settled hFollows
  obtain ⟨hGoesOn, hDrops⟩ := h.decode.marks hExecuteFree hNoDecode hNoFetch
  obtain ⟨hClear, -⟩ := h.decode.clear hNoDecode hNoFetch
  obtain ⟨-, hFetched, hFlushes, hStopped⟩ := h.counters hFollows
  obtain ⟨-, -, hStop, hFlush⟩ := madeFetch_pipeline m₃ p.slots.fetch free₃ control
  have hAdded := madeFetch_underWay m₃ p.slots.fetch control hClear
  have hBehind := h.behind.2
  rw [hFetched] at hAdded
  rw [hStopped] at hStop
  rw [hFlushes] at hFlush
  unfold Pipeline.Balanced Stages.underWay at hBalanced
  have hDropped : control ≠ .goOn →
      p.slots.decode.isSome.toNat = 1 ∧ p.fetchStopped = false ∧ m₃.next = m₂.next := by
    intro hControl
    obtain ⟨s, hSlot, hFresh⟩ := h.starts.1 hControl
    have hHalted := hFollows.stopped
    rw [hSlot, Machine.ahead_fresh _ hFresh,
      (hFollows.back.waiting s hSlot hFresh).running] at hHalted
    rw [hFed s hSlot hFresh]
    exact ⟨rfl, hHalted, hDrops hControl⟩
  cases control with
  | goOn =>
      obtain ⟨-, hMore⟩ := hGoesOn rfl
      dsimp only at hStop hFlush
      rw [hStop, hFlush]
      omega
  | redirect target =>
      obtain ⟨hOne, hOpen, hSame⟩ := hDropped nofun
      rw [hSame] at hAdded
      dsimp only at hStop hFlush
      rw [hStop, hFlush]
      omega
  | stop =>
      obtain ⟨hOne, hOpen, hSame⟩ := hDropped nofun
      rw [hSame] at hAdded
      rw [hOpen, Bool.toNat_false] at hBalanced
      dsimp only at hStop hFlush
      rw [hStop, hFlush, Bool.toNat_true]
      omega

end Round

/-- A run in order: the numbers of slots and commits, and what has become of every fetched slot. -/
structure Orderly (p : Pipeline) : Prop where
  numbered : p.Numbered
  fed : p.slots.Fed
  balanced : p.status ≠ .illegalInstruction → p.Balanced p.slots
  exited : p.status = .exited → p.fetchStopped = true ∧ p.slots = .bubbles

/-- A tick keeps a run in order, however it ends. -/
theorem Round.orderly {a : Machine} {p : Pipeline} {m₁ m₂ m₃ : Making}
    {free₁ free₂ free₃ : Bool} {control : Control} {commit : Option Commit}
    (h : Round p a m₁ m₂ m₃ free₁ free₂ free₃ control commit) (hRun : p.status.finished = false)
    (hFollows : Follows a p p.registers p.slots) (hOrderly : Orderly p) : Orderly p.tick.2 := by
  have hLegal : p.status ≠ .illegalInstruction := by
    intro hIs
    rw [hIs] at hRun
    cases hRun
  have hNumbered := h.numbered hFollows hOrderly.numbered
  have hFed := h.fed hFollows hOrderly.fed
  have hBalanced := h.balanced hFollows hOrderly.fed (hOrderly.balanced hLegal)
  have hNext := h.follows hFollows
  have hStaged := h.staged hFollows
  have hCase := h.tick hFollows
  generalize madeFetch m₃ p.slots.fetch free₃ control = m at hFed hBalanced hNext hStaged hCase
  generalize p.tick = t at hNumbered hCase ⊢
  cases hCase with
  | @idle q hWb hRest hGrave =>
      rw [hWb] at hBalanced
      have hRunning : q.status = .running := by
        rw [hRest]
        exact hStaged.running
      refine ⟨hNumbered, ?_, fun _ => ?_, fun hIs => ?_⟩
      · rw [hRest]
        exact hFed
      · unfold Pipeline.Balanced
        rw [hRest]
        dsimp only
        rw [hStaged.retired]
        exact hBalanced
      · rw [hRunning] at hIs
        cases hIs
  | @retires q c mismatches reference hWb hCommit hCycle hKind hCompared hRest hGrave =>
      rw [hWb] at hBalanced
      rcases after_cases hKind with
        ⟨-, hNextSlots, hNextStatus⟩ | ⟨hSystem, hEnds, hNextSlots, -⟩
      · have hSlots : q.slots = m.next := by
          rw [hRest]
          exact hNextSlots m.next
        have hRunning : q.status = .running := by
          rw [hRest]
          exact hNextStatus .running
        refine ⟨hNumbered, ?_, fun _ => ?_, fun hIs => ?_⟩
        · rw [hSlots]
          exact hFed
        · unfold Pipeline.Balanced
          rw [hSlots, hRest]
          exact hBalanced
        · rw [hRunning] at hIs
          cases hIs
      · have hSlots : q.slots = .bubbles := by
          rw [hRest]
          exact hNextSlots m.next
        obtain ⟨s, hSlot⟩ := Option.isSome_iff_exists.mp hWb
        rw [hSlot, Machine.past_some] at hNext
        have hHalted : a.next.halted = true := by
          rw [Machine.next_halted, hEnds]
          rfl
        obtain ⟨hNoWb, hNoMemory, hNoExecute⟩ := hNext.empty_of_halted hHalted
        obtain ⟨hStopped, hNoDecode⟩ := hNext.stopped_of_halted hHalted
        refine ⟨hNumbered, ?_, fun _ => ?_, fun _ => ⟨?_, hSlots⟩⟩
        · rw [hSlots]
          intro t hHeld
          cases hHeld
        · unfold Stages.underWay at hBalanced
          rw [hNoDecode, hNoExecute, hNoMemory, hNoWb] at hBalanced
          unfold Pipeline.Balanced
          rw [hSlots, hRest]
          exact hBalanced
        · rw [hRest]
          exact hStopped
  | @fails q c f reference hWb hCommit hKind hCompared hRest =>
      rw [hWb] at hBalanced
      have hSlots : q.slots = m.next := by rw [hRest]
      have hRunning : q.status = .running := by
        rw [hRest]
        exact hStaged.running
      refine ⟨hNumbered, ?_, fun _ => ?_, fun hIs => ?_⟩
      · dsimp only
        rw [hSlots]
        exact hFed
      · unfold Pipeline.Balanced
        rw [hRest]
        exact hBalanced
      · cases hRunning.symm.trans hIs
  | @illegal q f hWb hKind hRest hGrave hFault hPc =>
      have hSlots : q.slots = .bubbles := by rw [hRest]
      have hStatus : q.status = .illegalInstruction := by rw [hRest]
      refine ⟨hNumbered, ?_, fun hNot => absurd hStatus hNot, fun hIs => ?_⟩
      · rw [hSlots]
        intro t hHeld
        cases hHeld
      · rw [hStatus] at hIs
        cases hIs

end AccelPipe

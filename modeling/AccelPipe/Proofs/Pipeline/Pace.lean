import AccelPipe.Proofs.Pipeline.Timing

/-! Nothing waits for ever. The oldest instruction that has not reached Writeback waits in its stage
only for the ports of its banks, and comes nearer to Writeback with every tick: ports that are taken
become free, and those who can take them before it do so only once. -/
namespace AccelPipe

open Pipeline

/-- Nothing takes more than `limit` ticks: no port is taken for longer, and no stage has more ticks
left. -/
structure Paced (limit latency : Nat) (q : Pipeline) (now : Int) (slots : Slots) : Prop where
  timed : q.memory.Timed latency (now + limit)
  memory : ∀ s, slots.memory = some s → s.started = true → s.remaining ≤ limit
  execute : ∀ s, slots.execute = some s → s.started = true → s.remaining ≤ limit

/-- What a tick does to the oldest slot: it leaves its stage, it has one tick less, or it waits for
a port that is taken. -/
inductive Headway (limit latency wait : Nat) (q : Pipeline) (s : Slot) : Option Slot → Prop
  | leaves : Headway limit latency wait q s none
  | works {t : Slot} (hStarted : t.started = true) (hSome : 0 < t.remaining)
      (hLess : t.remaining + 1 ≤ if s.started then s.remaining else limit) :
      Headway limit latency wait q s (some t)
  | waits {t : Slot} (hBefore : s.started = false) (hFresh : t.started = false) (hWait : 0 < wait)
      (hTimed : q.memory.Timed latency (q.cycle + wait)) : Headway limit latency wait q s (some t)

namespace Pipeline

variable {p q : Pipeline} {s : Slot} {ins : Instruction} {limit latency wait : Nat}

/-- An access has no more left than its limit. -/
theorem Access.left_le {addr : Int} {isLoad : Bool} {left : Nat} {time : Int}
    (h : Access p s addr isLoad q left) (hTimed : p.memory.Timed latency time)
    (hOne : 1 ≤ latency) (hLatency : latency ≤ limit) :
    left ≤ if s.started then s.remaining else limit := by
  cases hStarted : s.started with
  | true =>
      cases h with
      | goesOn => exact Nat.le_refl _
      | begins hFresh =>
          rw [hStarted] at hFresh
          cases hFresh
  | false =>
      have hLeft := h.left_of_fresh hTimed hStarted
      rw [if_neg (by decide)]
      omega

/-- The slot in Memory makes headway. -/
theorem MemoryMove.headway {step : StageStep} (h : MemoryMove p s ins step)
    (hEven : p.memory.Even) (hTimed : p.memory.Timed latency (p.cycle + wait))
    (hOne : 1 ≤ latency) (hLatency : latency ≤ limit) (hCycle : step.pipeline.cycle = p.cycle) :
    Headway limit latency wait step.pipeline s (if step.done then none else some step.slot) := by
  cases h with
  | passes => exact .leaves
  | @refused addr q hKind hAddr hFresh hBegin =>
      have hBusy := refused_timed hTimed hEven hBegin
      have hMemory := begunAccess_memory p addr (ins.kind == .load)
      have hRefused := begin_of_begunAccess hBegin
      rw [hBegin] at hMemory
      refine .waits hFresh hFresh (by omega) ?_
      rw [hCycle]
      change q.memory.Timed latency _
      rw [show q.memory = _ from hMemory]
      exact hTimed.begin_of_refused hRefused
  | waits _ _ hAccess hLeft =>
      have hLess := hAccess.left_le hTimed hOne hLatency
      exact .works rfl (Nat.sub_pos_of_lt hLeft) (by dsimp only; omega)
  | loads => exact .leaves
  | stores => exact .leaves

/-- Memory leaves its slot no more than the limit. -/
theorem MemoryMove.within {step : StageStep} (h : MemoryMove p s ins step) {time : Int}
    (hTimed : p.memory.Timed latency time) (hOne : 1 ≤ latency) (hLatency : latency ≤ limit)
    (hWithin : s.started = true → s.remaining ≤ limit) :
    step.slot.started = true → step.slot.remaining ≤ limit := by
  intro hStarted
  have hAccess : ∀ {addr : Int} {isLoad : Bool} {q : Pipeline} {left : Nat},
      Access p s addr isLoad q left → left - 1 ≤ limit := by
    intro addr isLoad q left hAccess
    have hLeft := hAccess.left_le hTimed hOne hLatency
    split at hLeft
    · have hBound := hWithin ‹_›
      omega
    · omega
  cases h with
  | passes => exact hWithin hStarted
  | refused => exact hWithin hStarted
  | waits _ _ h => exact hAccess h
  | loads _ _ h => exact hAccess h
  | stores _ _ _ h => exact hAccess h

/-- An instruction has all operands if nothing is in front of it. -/
theorem forward_ready_alone (ins : Instruction) (latched : Hazard.Reading) :
    (Hazard.forward ins latched none none).ready = true := by
  rw [Hazard.forward_ready_iff]
  intro entry _ hSome
  unfold Hazard.producer? at hSome
  split at hSome <;> cases hSome

/-- The slot in Execute makes headway if it is the oldest. -/
theorem ExecuteMove.headway {latched : Hazard.Reading} {step : StageStep}
    (h : ExecuteMove p s ins none (Hazard.forward ins latched none none) step)
    (hTimed : p.memory.Timed latency (p.cycle + wait)) (hBeats : p.units.beats ins ≤ limit)
    (hCycle : step.pipeline.cycle = p.cycle) :
    Headway limit latency wait step.pipeline s
      (if step.done then none else some { step.slot with stalled := true }) := by
  have hReady := forward_ready_alone ins latched
  cases h with
  | advances hStarted =>
      change Headway limit latency wait p s (if (s.remaining - 1 == 0) = true then none else some _)
      by_cases hLast : s.remaining - 1 = 0
      · rw [if_pos (beq_iff_eq.mpr hLast)]
        exact .leaves
      · rw [if_neg (by simpa using hLast)]
        refine .works hStarted (Nat.pos_of_ne_zero hLast) ?_
        rw [if_pos hStarted]
        change s.remaining - 1 + 1 ≤ s.remaining
        omega
  | unready _ hUnready =>
      rw [hReady] at hUnready
      cases hUnready
  | ordered _ _ _ _ hAhead => cases hAhead
  | blocked hFresh _ _ hBlocked =>
      have hBusy := hTimed.burst_refused hBlocked
      refine .waits hFresh hFresh (by omega) ?_
      rw [hCycle]
      exact hTimed.reserveBurst _ (Int.le_refl _) fun hGranted => absurd hGranted hBlocked
  | starts hFresh _ _ _ =>
      by_cases hLast : p.units.beats ins - 1 = 0
      · rw [if_pos (beq_iff_eq.mpr hLast)]
        exact .leaves
      · rw [if_neg (by simpa using hLast)]
        refine .works rfl (Nat.pos_of_ne_zero hLast) ?_
        rw [if_neg (by simp [hFresh])]
        change p.units.beats ins - 1 + 1 ≤ limit
        omega

/-- Execute leaves its slot no more than the limit. -/
theorem ExecuteMove.within {mem : Option Slot} {f : Hazard.Forwarding} {step : StageStep}
    (h : ExecuteMove p s ins mem f step) (hBeats : p.units.beats ins ≤ limit)
    (hWithin : s.started = true → s.remaining ≤ limit) :
    step.slot.started = true → step.slot.remaining ≤ limit := by
  intro hStarted
  cases h with
  | advances => exact Nat.le_trans (Nat.sub_le _ 1) (hWithin hStarted)
  | unready => exact hWithin hStarted
  | ordered hFresh =>
      rw [show s.started = true from hStarted] at hFresh
      cases hFresh
  | blocked hFresh =>
      rw [show s.started = true from hStarted] at hFresh
      cases hFresh
  | starts => exact Nat.le_trans (Nat.sub_le _ 1) hBeats

/-- Nothing keeps Decode waiting with nothing in front of it. -/
theorem decodeReason_alone {cur : Slots} (hExecute : cur.execute = none)
    (hMemory : cur.memory = none) (memoryFree : Bool) (s : Slot) :
    decodeReason cur memoryFree s = .ok none := by
  unfold decodeReason Hazard.decodeStall Hazard.waitsForLoad Hazard.waitsForUnit Hazard.loadsOneOf
    Hazard.holds
  rw [hExecute, hMemory]
  dsimp only
  split <;> split <;> rfl

/-- The ticks that an oldest slot needs for its stage at most, if it waits no longer than `wait`. -/
def due (limit wait : Nat) (s : Slot) : Nat :=
  if s.started then max 1 s.remaining else wait + limit + 1

/-- What an instruction in Execute can still add to the waiting of the one in Memory: once it has
started, it takes no more ports. -/
def delay (limit : Nat) (ex : Option Slot) : Nat := if ex.any (·.started) then 0 else limit

/-- The ticks after which the oldest instruction is in Writeback at most, if the ports that are
taken become free after `wait` ticks. -/
def distance (limit wait : Nat) (slots : Slots) : Nat :=
  if slots.writeback.isSome then 0
  else match slots.memory, slots.execute with
    | some s, ex => due limit (wait + delay limit ex) s
    | none, some s => due limit wait s + (3 * limit + 1)
    | none, none => if slots.decode.isSome then 5 * limit + 3 else 5 * limit + 4

theorem delay_le (limit : Nat) (ex : Option Slot) : delay limit ex ≤ limit := by
  unfold delay
  split
  · exact Nat.zero_le limit
  · exact Nat.le_refl limit

theorem delay_of_fresh (h : s.started = false) (limit : Nat) : delay limit (some s) = limit := by
  unfold delay
  rw [Option.any_some, h]
  rfl

theorem delay_of_started (h : s.started = true) (limit : Nat) : delay limit (some s) = 0 := by
  unfold delay
  rw [Option.any_some, h]
  rfl

/-- What is due is at least one tick. -/
theorem one_le_due (limit wait : Nat) (s : Slot) : 1 ≤ due limit wait s := by
  unfold due
  split
  · exact Nat.le_max_left 1 _
  · exact Nat.le_add_left 1 _

theorem due_of_fresh (h : s.started = false) (limit wait : Nat) :
    due limit wait s = wait + limit + 1 := by
  unfold due
  rw [if_neg (by simp [h])]

/-- With one tick less to work, a slot has come nearer to the end of its stage. -/
theorem due_of_works {t : Slot} (hStarted : t.started = true) (hSome : 0 < t.remaining)
    (hLess : t.remaining + 1 ≤ if s.started then s.remaining else limit) (wait wait' : Nat) :
    due limit wait' t + 1 ≤ due limit wait s := by
  unfold due
  rw [if_pos hStarted]
  split
  · rename_i hBefore
    rw [if_pos hBefore] at hLess
    omega
  · rename_i hBefore
    rw [if_neg hBefore] at hLess
    omega

section

variable {slots : Slots}

/-- With a slot in Writeback, the next commit is at hand. -/
theorem distance_of_writeback (h : slots.writeback.isSome = true) (limit wait : Nat) :
    distance limit wait slots = 0 := by
  unfold distance
  exact if_pos h

/-- Else it is due when the slot in Memory is, -/
theorem distance_of_memory (hWb : slots.writeback = none) {s : Slot}
    (hMemory : slots.memory = some s) (limit wait : Nat) :
    distance limit wait slots = due limit (wait + delay limit slots.execute) s := by
  unfold distance
  rw [hWb, hMemory]
  rfl

/-- when the one in Execute has gone through Memory, -/
theorem distance_of_execute (hWb : slots.writeback = none) (hMemory : slots.memory = none)
    {s : Slot} (hExecute : slots.execute = some s) (limit wait : Nat) :
    distance limit wait slots = due limit wait s + (3 * limit + 1) := by
  unfold distance
  rw [hWb, hMemory, hExecute]
  rfl

/-- or when one in front has gone through both. -/
theorem distance_of_front (hWb : slots.writeback = none) (hMemory : slots.memory = none)
    (hExecute : slots.execute = none) (limit wait : Nat) :
    distance limit wait slots = if slots.decode.isSome then 5 * limit + 3 else 5 * limit + 4 := by
  unfold distance
  rw [hWb, hMemory, hExecute]
  rfl

end

/-! A tick of each stage. -/

/-- With its ports free in time, a slot makes headway in Memory. -/
theorem MemoryRound.headway {m : Making} {free : Bool} (h : MemoryRound p ins (some s) m free)
    (hEven : p.memory.Even) (hTimed : p.memory.Timed latency (p.cycle + wait))
    (hOne : 1 ≤ latency) (hLatency : latency ≤ limit) :
    Headway limit latency wait m.pipeline s m.next.memory ∧
      m.next.writeback.isSome = m.next.memory.isNone := by
  have hCycle : m.pipeline.cycle = p.cycle := by rw [h.moved.rest]
  cases h with
  | @moves _ step hMove =>
      have hHeadway := hMove.headway hEven hTimed hOne hLatency hCycle
      cases hDone : step.done with
      | true =>
          rw [hDone] at hHeadway
          exact ⟨hHeadway, rfl⟩
      | false =>
          rw [hDone] at hHeadway
          exact ⟨hHeadway, rfl⟩

/-- Nothing leaves Execute while Memory is not free. -/
theorem ExecuteRound.memory {m m' : Making} {cur : Slots} {ex : Option Slot} {free : Bool}
    {control : Control} (h : ExecuteRound m ins cur false ex m' free control) :
    m'.next.memory = m.next.memory := by
  cases h with
  | empty => rfl
  | moves =>
      rw [Bool.and_false]
      rfl

/-- Behind an instruction that waits in Memory, the one in Execute takes ports once at most. -/
theorem ExecuteRound.delay {m m' : Making} {cur : Slots} {ex : Option Slot} {free : Bool}
    {control : Control} (h : ExecuteRound m ins cur false ex m' free control)
    (hExecute : m.next.execute = none) (hTimed : m.pipeline.memory.Timed latency
      (m.pipeline.cycle + wait)) (hWait : 0 < wait ∧ wait ≤ limit)
    (hBeats : m.pipeline.units.beats ins ≤ limit) (hLatency : latency ≤ limit) :
    ∃ wait' ≤ limit, m'.pipeline.memory.Timed latency (m.pipeline.cycle + 1 + wait') ∧
      wait' + Pipeline.delay limit m'.next.execute + 1 ≤ wait + Pipeline.delay limit ex := by
  have hSooner : m.pipeline.memory.Timed latency
      (m.pipeline.cycle + 1 + ((wait - 1 : Nat) : Int)) :=
    hTimed.mono (by omega)
  cases h with
  | empty =>
      refine ⟨wait - 1, by omega, hSooner, ?_⟩
      rw [hExecute]
      omega
  | @moves s step hMove =>
      rw [Bool.and_false]
      change ∃ wait' ≤ limit, _ ∧
        wait' + Pipeline.delay limit (some step.slot) + 1 ≤ _
      cases hBefore : s.started with
      | true =>
          cases hMove with
          | advances hStarted =>
              refine ⟨wait - 1, by omega, hSooner, ?_⟩
              rw [delay_of_started hBefore, delay_of_started (by exact hBefore)]
              omega
          | unready hFresh | ordered hFresh | blocked hFresh | starts hFresh =>
              rw [hBefore] at hFresh
              cases hFresh
      | false =>
          rw [delay_of_fresh hBefore]
          cases hStarted : step.slot.started with
          | true =>
              refine ⟨limit - 1, by omega, ?_, ?_⟩
              · exact hMove.timed hTimed (by omega) fun _ _ => by omega
              · rw [delay_of_started hStarted]
                omega
          | false =>
              refine ⟨wait - 1, by omega, ?_, ?_⟩
              · refine hMove.timed hTimed (by omega) fun _ hStarts => ?_
                rw [hStarted] at hStarts
                cases hStarts
              · rw [delay_of_fresh hStarted]
                omega

/-- The oldest slot in Execute makes headway. -/
theorem ExecuteRound.headway {m m' : Making} {cur : Slots} {free : Bool} {control : Control}
    (h : ExecuteRound m ins cur true (some s) m' free control) (hNext : m.next = .bubbles)
    (hMemory : cur.memory = none) (hWb : cur.writeback = none)
    (hTimed : m.pipeline.memory.Timed latency (m.pipeline.cycle + wait))
    (hBeats : m.pipeline.units.beats ins ≤ limit) :
    Headway limit latency wait m'.pipeline s m'.next.execute ∧
      m'.next.memory.isSome = m'.next.execute.isNone ∧
      ∀ t, m'.next.memory = some t → t.started = false := by
  cases h with
  | @moves _ step hMove =>
      have hCycle : step.pipeline.cycle = m.pipeline.cycle := by rw [hMove.moved.rest]
      rw [hMemory, hWb] at hMove
      have hHeadway := hMove.headway hTimed hBeats hCycle
      rw [hNext]
      cases hDone : step.done with
      | true =>
          rw [hDone] at hHeadway
          refine ⟨hHeadway, rfl, fun t hSlot => ?_⟩
          obtain rfl := Option.some.inj hSlot
          rfl
      | false =>
          rw [hDone] at hHeadway
          refine ⟨hHeadway, rfl, ?_⟩
          intro t hSlot
          cases hSlot

/-- Decode lets an instruction into Execute only if that is free. -/
theorem Handed.execute {m m' : Making} {id : Option Slot} {executeFree free : Bool}
    {control : Control} (h : Handed m id executeFree m' free control) (limit : Nat) :
    m'.next.memory = m.next.memory ∧ m'.next.writeback = m.next.writeback ∧
      (executeFree = false → m'.next.execute = m.next.execute) ∧
      (executeFree = m.next.execute.isNone →
        Pipeline.delay limit m'.next.execute = Pipeline.delay limit m.next.execute) := by
  cases h with
  | flushed _ hNext | empty _ hNext =>
      rw [hNext]
      exact ⟨rfl, rfl, fun _ => rfl, fun _ => rfl⟩
  | waits _ hNext =>
      rw [hNext]
      exact ⟨rfl, rfl, fun _ => rfl, fun _ => rfl⟩
  | moves _ hFree hNext hFresh =>
      rw [hNext, hFree]
      refine ⟨rfl, rfl, nofun, fun hNone => ?_⟩
      rw [Option.isNone_iff_eq_none.mp hNone.symm, delay_of_fresh hFresh]
      rfl

end Pipeline

/-- No instruction needs more ticks than one that is still to be fetched. -/
theorem Paced.distance_le {limit latency wait : Nat} {q : Pipeline} {now : Int} {slots : Slots} (h : Paced limit latency q now slots)
    (hWait : wait ≤ limit) : distance limit wait slots ≤ 5 * limit + 4 := by
  have hDue : ∀ {s : Slot} {wait : Nat}, (s.started = true → s.remaining ≤ limit) →
      due limit wait s ≤ wait + limit + 1 := by
    intro s wait hWithin
    unfold due
    split
    · have hLess := hWithin ‹_›
      omega
    · exact Nat.le_refl _
  cases hWb : slots.writeback with
  | some s =>
      rw [distance_of_writeback (by rw [hWb]; rfl)]
      exact Nat.zero_le _
  | none =>
      cases hMemory : slots.memory with
      | some s =>
          have hLess := delay_le limit slots.execute
          have hTicks := @hDue s (wait + delay limit slots.execute) (h.memory s hMemory)
          rw [distance_of_memory hWb hMemory]
          omega
      | none =>
          cases hExecute : slots.execute with
          | some s =>
              have hTicks := @hDue s wait (h.execute s hExecute)
              rw [distance_of_execute hWb hMemory hExecute]
              omega
          | none =>
              rw [distance_of_front hWb hMemory hExecute]
              split <;> omega

namespace Round

variable {a : Machine} {p : Pipeline} {m₁ m₂ m₃ : Making} {free₁ free₂ free₃ : Bool}
  {control : Control} {commit : Option Commit} {limit latency wait : Nat}

/-- A round leaves the times of the units as they are. -/
theorem beats_le (h : Round p a m₁ m₂ m₃ free₁ free₂ free₃ control commit)
    (hFollows : Follows a p p.registers p.slots) (hBeats : ∀ ins, a.units.beats ins ≤ limit)
    (ins : Instruction) : m₁.pipeline.units.beats ins ≤ limit := by
  have hBack := hFollows.back.running
  rw [Units.beats_eq_of_frame (hBack.shifted_frame (h.memory.shifted hBack))]
  exact hBeats ins

/-- The oldest instruction comes nearer to Writeback while it is in Memory. -/
theorem nearer_memory (h : Round p a m₁ m₂ m₃ free₁ free₂ free₃ control commit)
    (hFollows : Follows a p p.registers p.slots) (hBeats : ∀ ins, a.units.beats ins ≤ limit)
    (hOne : 1 ≤ latency) (hLatency : latency ≤ limit)
    (hTimed : p.memory.Timed latency (p.cycle + wait)) (hWait : wait ≤ limit)
    (hLater : m₂.pipeline.memory.Timed latency (p.cycle + 1 + limit))
    (hWb : p.slots.writeback = none) {s : Slot} (hMemory : p.slots.memory = some s)
    {next : Slots} (hNextWb : next.writeback = m₃.next.writeback)
    (hNextMemory : next.memory = m₃.next.memory)
    (hNextExecute : next.execute = m₃.next.execute) :
    ∃ wait' ≤ limit, m₂.pipeline.memory.Timed latency (p.cycle + 1 + wait') ∧
      distance limit wait' next + 1 ≤ distance limit wait p.slots := by
  have hEven : p.memory.Even := hFollows.back.rear.soundMemory.toEven
  have hFirst := h.memory
  rw [hMemory] at hFirst
  obtain ⟨hHeadway, hLeft⟩ := hFirst.headway hEven hTimed hOne hLatency
  obtain ⟨hFree, hNoExecute, -, -⟩ := hFirst.free
  obtain ⟨hSameMemory, hSameWb, -, hSameDelay⟩ := h.decode.handed.execute limit
  have hCycle : m₁.pipeline.cycle = p.cycle := by rw [hFirst.moved.rest]
  have hNewWb : next.writeback = m₁.next.writeback := by
    rw [hNextWb, hSameWb, h.execute.writeback]
  rw [distance_of_memory hWb hMemory]
  have hSecond := h.execute
  have hStays : ∀ t, m₁.next.memory = some t → next.writeback = none ∧ next.memory = some t := by
    intro t hSlot
    rw [hFree, hSlot] at hSecond
    rw [hNewWb, hNextMemory, hSameMemory, hSecond.memory]
    refine ⟨?_, hSlot⟩
    rw [hSlot] at hLeft
    exact Option.isNone_iff_eq_none.mp (by rw [← Option.not_isSome, hLeft]; rfl)
  generalize hSlot : m₁.next.memory = after at hHeadway hLeft hFree hStays
  cases hHeadway with
  | leaves =>
      refine ⟨limit, Nat.le_refl limit, hLater, ?_⟩
      rw [distance_of_writeback (by rw [hNewWb, hLeft]; rfl)]
      exact one_le_due _ _ _
  | @works t hStarted hSome hLess =>
      obtain ⟨hNone, hHere⟩ := hStays t rfl
      refine ⟨limit, Nat.le_refl limit, hLater, ?_⟩
      rw [distance_of_memory hNone hHere]
      exact due_of_works hStarted hSome hLess _ _
  | @waits t hBefore hFresh hSome hStill =>
      obtain ⟨hNone, hHere⟩ := hStays t rfl
      rw [hFree] at hSecond
      obtain ⟨wait', hLess, hAfter, hDelay⟩ := hSecond.delay hNoExecute hStill ⟨hSome, hWait⟩
        (h.beats_le hFollows hBeats _) hLatency
      rw [hCycle] at hAfter
      refine ⟨wait', hLess, hAfter, ?_⟩
      rw [distance_of_memory hNone hHere, due_of_fresh hFresh, due_of_fresh hBefore, hNextExecute,
        hSameDelay (h.settled hFollows).free]
      omega

/-- The oldest instruction comes nearer to Writeback while it is in Execute. -/
theorem nearer_execute (h : Round p a m₁ m₂ m₃ free₁ free₂ free₃ control commit)
    (hFollows : Follows a p p.registers p.slots) (hBeats : ∀ ins, a.units.beats ins ≤ limit)
    (hTimed : p.memory.Timed latency (p.cycle + wait)) (hWait : wait ≤ limit)
    (hLater : m₂.pipeline.memory.Timed latency (p.cycle + 1 + limit))
    (hWb : p.slots.writeback = none) (hMemory : p.slots.memory = none) {s : Slot}
    (hExecute : p.slots.execute = some s) {next : Slots}
    (hNextWb : next.writeback = m₃.next.writeback) (hNextMemory : next.memory = m₃.next.memory)
    (hNextExecute : next.execute = m₃.next.execute) :
    ∃ wait' ≤ limit, m₂.pipeline.memory.Timed latency (p.cycle + 1 + wait') ∧
      distance limit wait' next + 1 ≤ distance limit wait p.slots := by
  have hBeats' := h.beats_le hFollows hBeats
    ((a.past p.slots.writeback).past p.slots.memory).instruction
  obtain ⟨hSameMemory, hSameWb, hSame, -⟩ := h.decode.handed.execute limit
  have hFree := (h.settled hFollows).free
  have hFirst := h.memory
  have hSecond := h.execute
  rw [hMemory] at hFirst
  cases hFirst
  rw [hExecute] at hSecond
  obtain ⟨hHeadway, hLeft, hFresh⟩ := hSecond.headway rfl hMemory hWb hTimed hBeats'
  have hNewWb : next.writeback = none := by rw [hNextWb, hSameWb, hSecond.writeback]; rfl
  have hCycle : m₂.pipeline.cycle = p.cycle := by
    cases hSecond with
    | moves hMove => rw [hMove.moved.rest]
  rw [distance_of_execute hWb hMemory hExecute]
  have hStays : ∀ t, m₂.next.execute = some t → next.memory = none ∧ next.execute = some t := by
    intro t hSlot
    rw [hSlot] at hFree hLeft
    rw [hNextMemory, hSameMemory, hNextExecute, hSame hFree]
    exact ⟨by simpa using hLeft, hSlot⟩
  generalize hSlot : m₂.next.execute = after at hHeadway hLeft hStays
  cases hHeadway with
  | leaves =>
      obtain ⟨t, hThere⟩ := Option.isSome_iff_exists.mp hLeft
      have hDelay := delay_le limit next.execute
      have hDue := one_le_due limit wait s
      refine ⟨limit, Nat.le_refl limit, hLater, ?_⟩
      rw [distance_of_memory hNewWb (hNextMemory.trans (hSameMemory.trans hThere)),
        due_of_fresh (hFresh t hThere)]
      omega
  | @works t hStarted hSome hLess =>
      obtain ⟨hNone, hHere⟩ := hStays t rfl
      have hDue := due_of_works hStarted hSome hLess wait limit
      refine ⟨limit, Nat.le_refl limit, hLater, ?_⟩
      rw [distance_of_execute hNewWb hNone hHere]
      omega
  | @waits t hBefore hStill hSome hPorts =>
      obtain ⟨hNone, hHere⟩ := hStays t rfl
      rw [hCycle] at hPorts
      refine ⟨wait - 1, by omega, hPorts.mono (by omega), ?_⟩
      rw [distance_of_execute hNewWb hNone hHere, due_of_fresh hStill, due_of_fresh hBefore]
      omega

/-- The oldest instruction comes nearer to Writeback while it is in front of Execute. -/
theorem nearer_front (h : Round p a m₁ m₂ m₃ free₁ free₂ free₃ control commit)
    (hFollows : Follows a p p.registers p.slots) (hOpen : a.halted = false)
    (hWb : p.slots.writeback = none) (hMemory : p.slots.memory = none)
    (hExecute : p.slots.execute = none) {next : Slots}
    (hNext : (madeFetch m₃ p.slots.fetch free₃ control).next = next) :
    distance limit limit next + 1 ≤ distance limit wait p.slots := by
  have hStopped := hFollows.stopped
  have hLive := hFollows.front.live
  rw [hWb, hMemory, hExecute] at hStopped
  rw [show p.fetchStopped = a.halted from hStopped, hOpen] at hLive
  have hFirst := h.memory
  have hSecond := h.execute
  have hThird := h.decode
  rw [hMemory] at hFirst
  cases hFirst
  rw [hExecute] at hSecond
  cases hSecond
  obtain ⟨hNextExecute, hNextMemory, hNextWb⟩ := madeFetch_next m₃ p.slots.fetch free₃ .goOn
  have hNextDecode := madeFetch_decode m₃ p.slots.fetch free₃ .goOn
  rw [hNext] at hNextExecute hNextMemory hNextWb hNextDecode
  rw [distance_of_front hWb hMemory hExecute]
  cases hDecode : p.slots.decode with
  | some s =>
      rw [hDecode] at hThird
      cases hThird with
      | moves hFree hReason =>
          rw [distance_of_execute hNextWb hNextMemory hNextExecute, due_of_fresh rfl,
            Option.isSome_some, if_pos rfl]
          omega
      | @waits _ reason hReason hStays =>
          rw [decodeReason_alone hExecute hMemory] at hReason
          obtain rfl := Except.ok.inj hReason
          cases hStays
      | flushed hControl => exact absurd rfl hControl
  | none =>
      rw [hDecode] at hThird
      cases hThird with
      | empty =>
          have hFilled : next.decode.isSome = true := by
            rw [hNextDecode, hLive]
            change (false || (true && true && !p.fetchStopped && true)) = true
            rw [show p.fetchStopped = a.halted from hStopped, hOpen]
            rfl
          have hAfter := distance_of_front hNextWb hNextMemory hNextExecute limit limit
          rw [if_pos hFilled] at hAfter
          rw [if_neg (by decide)]
          omega
      | flushed hControl => exact absurd rfl hControl

/-- A tick takes ports for a limited time only, and leaves limited work. -/
theorem paced (h : Round p a m₁ m₂ m₃ free₁ free₂ free₃ control commit)
    (hFollows : Follows a p p.registers p.slots) (hBeats : ∀ ins, a.units.beats ins ≤ limit)
    (hOne : 1 ≤ latency) (hLatency : latency ≤ limit)
    (hPaced : Paced limit latency p p.cycle p.slots) :
    m₂.pipeline.memory.Timed latency (p.cycle + limit) ∧
      (∀ s, m₂.next.memory = some s → s.started = true → s.remaining ≤ limit) ∧
      ∀ s, m₂.next.execute = some s → s.started = true → s.remaining ≤ limit := by
  have hTimed := hPaced.timed
  have hCycle : m₁.pipeline.cycle = p.cycle := by rw [h.memory.moved.rest]
  have hFirst : m₁.pipeline.memory.Timed latency (p.cycle + limit) ∧
      ∀ s, m₁.next.memory = some s → s.started = true → s.remaining ≤ limit := by
    have hMemory := h.memory
    have hWithin := hPaced.memory
    generalize p.slots.memory = mem at hMemory hWithin
    cases hMemory with
    | empty =>
        refine ⟨hTimed, fun t hSlot => ?_⟩
        cases hSlot
    | @moves s step hMove =>
        refine ⟨hMove.timed hTimed (Int.le_refl _) (by dsimp only; omega), ?_⟩
        cases step.done with
        | true =>
            intro t hSlot
            cases hSlot
        | false =>
            intro t hSlot
            obtain rfl := Option.some.inj hSlot
            exact hMove.within hTimed hOne hLatency (hWithin s rfl)
  obtain ⟨hPorts, hInMemory⟩ := hFirst
  have hBeats' := h.beats_le hFollows hBeats
    ((a.past p.slots.writeback).past p.slots.memory).instruction
  have hNone := h.memory.free.2.1
  have hExecute := h.execute
  have hWithin := hPaced.execute
  generalize p.slots.execute = ex at hExecute hWithin
  cases hExecute with
  | empty =>
      refine ⟨hPorts, hInMemory, fun t hSlot => ?_⟩
      cases hNone.symm.trans hSlot
  | @moves s step hMove =>
      refine ⟨?_, ?_⟩
      · exact hMove.timed hPorts (Int.le_refl _) fun _ _ => by rw [hCycle]; omega
      · have hRest := hMove.within hBeats' (hWithin s rfl)
        cases step.done && free₁ with
        | true =>
            refine ⟨fun t hSlot hStarted => ?_, fun t hSlot => ?_⟩
            · obtain rfl := Option.some.inj hSlot
              cases hStarted
            · cases hNone.symm.trans hSlot
        | false =>
            refine ⟨hInMemory, fun t hSlot => ?_⟩
            obtain rfl := Option.some.inj hSlot
            exact hRest

/-- Every tick without a commit brings the oldest instruction nearer to its commit. -/
theorem nearer (h : Round p a m₁ m₂ m₃ free₁ free₂ free₃ control commit)
    (hFollows : Follows a p p.registers p.slots) (hOpen : a.halted = false)
    (hBeats : ∀ ins, a.units.beats ins ≤ limit) (hOne : 1 ≤ latency) (hLatency : latency ≤ limit)
    (hPaced : Paced limit latency p p.cycle p.slots)
    (hTimed : p.memory.Timed latency (p.cycle + wait)) (hWait : wait ≤ limit) {m : Making}
    (hMaking : madeFetch m₃ p.slots.fetch free₃ control = m) :
    Paced limit latency m.pipeline (p.cycle + 1) m.next ∧
      (p.slots.writeback = none → ∃ wait' ≤ limit,
        m.pipeline.memory.Timed latency (p.cycle + 1 + wait') ∧
          distance limit wait' m.next + 1 ≤ distance limit wait p.slots) := by
  obtain ⟨hPorts, hInMemory, hInExecute⟩ := h.paced hFollows hBeats hOne hLatency hPaced
  have hLater : m₂.pipeline.memory.Timed latency (p.cycle + 1 + limit) := hPorts.mono (by omega)
  have hPipeline := (madeFetch_pipeline m₃ p.slots.fetch free₃ control).1
  obtain ⟨hNextExecute, hNextMemory, hNextWb⟩ := madeFetch_next m₃ p.slots.fetch free₃ control
  rw [hMaking] at hPipeline hNextExecute hNextMemory hNextWb
  rw [h.decode.pipeline] at hPipeline
  obtain ⟨hSameMemory, -, -, -⟩ := h.decode.handed.execute limit
  refine ⟨⟨?_, ?_, ?_⟩, fun hWb => ?_⟩
  · rw [hPipeline]
    exact hLater
  · rw [hNextMemory, hSameMemory]
    exact hInMemory
  · rw [hNextExecute]
    cases h.decode.handed with
    | flushed _ hNext | empty _ hNext | waits _ hNext =>
        rw [hNext]
        exact hInExecute
    | moves _ _ hNext hFresh =>
        rw [hNext]
        intro t hSlot hStarted
        obtain rfl := Option.some.inj hSlot
        rw [hFresh] at hStarted
        cases hStarted
  · rw [hPipeline]
    cases hMemory : p.slots.memory with
    | some s =>
        exact h.nearer_memory hFollows hBeats hOne hLatency hTimed hWait hLater hWb hMemory hNextWb
          hNextMemory hNextExecute
    | none =>
        cases hExecute : p.slots.execute with
        | some s =>
            exact h.nearer_execute hFollows hBeats hTimed hWait hLater hWb hMemory hExecute hNextWb
              hNextMemory hNextExecute
        | none =>
            exact ⟨limit, Nat.le_refl limit, hLater,
              h.nearer_front hFollows hOpen hWb hMemory hExecute (congrArg Making.next hMaking)⟩

end Round

end AccelPipe

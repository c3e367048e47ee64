import AccelPipe.Proofs.Machine.Step
import AccelPipe.Proofs.Memory.Flat
import AccelPipe.Proofs.Pipeline.Cover
import AccelPipe.Proofs.Pipeline.Operands

/-! All that Memory and Execute can do with a slot in one tick. No stage fails on a slot that holds
an instruction and what the stages before have found out about it. -/
namespace AccelPipe

/-- The faults that tell that a run went wrong, the newest first. -/
def Pipeline.grave (p : Pipeline) : List Fault :=
  p.faultLog.filter fun f => f.kind == .correctness || f.kind == .decode

/-- A slot with what Execute has found out about its instruction. -/
def Slot.doing (s : Slot) (w : Work) : Slot :=
  { s with
    result := w.result, memAddr := w.memAddr, storeValue := w.storeValue, taken := w.taken
    target := w.target, saturated := w.saturated }

/-- The ticks that Execute takes for an instruction. -/
def Units.beats (u : Units) (ins : Instruction) : Nat :=
  match Accelerator.ofKind? ins.kind with
  | some acc => u.latency acc
  | none => 1

namespace Pipeline

/-- Nothing has happened but bookkeeping: ports and prefetch buffer of the memory, coverage, and
faults that are not grave. -/
structure Aside (p q : Pipeline) : Prop where
  rest : q = { p with memory := q.memory, coverage := q.coverage, faultLog := q.faultLog }
  grave : q.grave = p.grave
  words : p.memory.SameWords q.memory
  sound : p.memory.Sound → q.memory.Sound

theorem Aside.refl (p : Pipeline) : Aside p p := ⟨rfl, rfl, Memory.SameWords.refl _, id⟩

/-- A conflict stays aside. -/
theorem Aside.bankConflict {p q : Pipeline} (h : Aside p q) (s : Slot) (ins : Instruction)
    (banks : List Nat) : Aside p (q.bankConflict s ins banks).pipeline where
  rest := by
    rw [h.rest]
    rfl
  grave := by
    rw [← h.grave]
    rfl
  words := h.words
  sound := h.sound

/-- So does the beginning of an access. -/
theorem aside_begunAccess (p : Pipeline) (addr : Int) (isLoad : Bool) :
    Aside p (p.begunAccess addr isLoad).2 := by
  unfold begunAccess
  dsimp only
  split
  · exact ⟨rfl, rfl, Memory.sameWords_begin _ _ _ _, fun h => h.begin _ _ _⟩
  · exact ⟨rfl, rfl, Memory.sameWords_begin _ _ _ _, fun h => h.begin _ _ _⟩

theorem begunAccess_memory (p : Pipeline) (addr : Int) (isLoad : Bool) :
    (p.begunAccess addr isLoad).2.memory = (p.memory.begin addr p.cycle isLoad).2 := by
  unfold begunAccess
  dsimp only
  split <;> rfl

/-- What begins an access is memory. -/
theorem begin_of_begunAccess {p q : Pipeline} {addr : Int} {isLoad : Bool} {ticks : Option Nat}
    (h : p.begunAccess addr isLoad = (ticks, q)) :
    (p.memory.begin addr p.cycle isLoad).1 = ticks := by
  unfold begunAccess at h
  exact congrArg Prod.fst h

/-- A memory access under way, with the ticks that it has left, this one included. -/
inductive Access (p : Pipeline) (s : Slot) (addr : Int) (isLoad : Bool) : Pipeline → Nat → Prop
  | goesOn (hStarted : s.started = true) : Access p s addr isLoad p s.remaining
  | begins {q : Pipeline} {ticks : Nat} (hStarted : s.started = false)
      (hBegin : p.begunAccess addr isLoad = (some ticks, q)) : Access p s addr isLoad q ticks

/-- However an access goes on, it stays aside. -/
theorem Access.aside {p q : Pipeline} {s : Slot} {addr : Int} {isLoad : Bool} {left : Nat}
    (h : Access p s addr isLoad q left) : Aside p q := by
  cases h with
  | goesOn => exact Aside.refl p
  | begins _ hBegin =>
      have hAside := aside_begunAccess p addr isLoad
      rw [hBegin] at hAside
      exact hAside

/-- What Memory can do with a slot. -/
inductive MemoryMove (p : Pipeline) (s : Slot) (ins : Instruction) : StageStep → Prop
  | passes (hLoad : ins.kind ≠ .load) (hStore : ins.kind ≠ .store) :
      MemoryMove p s ins ⟨p, { s with done := true }, true, []⟩
  | refused {addr : Int} {q : Pipeline} (hKind : ins.kind = .load ∨ ins.kind = .store)
      (hAddr : s.memAddr = some addr) (hStarted : s.started = false)
      (hBegin : p.begunAccess addr (ins.kind == .load) = (none, q)) :
      MemoryMove p s ins
        (q.bankConflict { s with stalled := true } ins [q.memory.bankOf addr])
  | waits {addr : Int} {q : Pipeline} {left : Nat} (hKind : ins.kind = .load ∨ ins.kind = .store)
      (hAddr : s.memAddr = some addr) (hAccess : Access p s addr (ins.kind == .load) q left)
      (hLeft : 1 < left) :
      MemoryMove p s ins
        ⟨q, { s with started := true, remaining := left - 1, stalled := true }, false, []⟩
  | loads {addr : Int} {q : Pipeline} {left : Nat} (hKind : ins.kind = .load)
      (hAddr : s.memAddr = some addr) (hAccess : Access p s addr (ins.kind == .load) q left)
      (hLeft : left ≤ 1) :
      MemoryMove p s ins
        ⟨{ q with memory := (q.memory.completeLoad addr).2 },
          { s with
            started := true, remaining := left - 1, done := true
            result := some (q.memory.completeLoad addr).1 },
          true, []⟩
  | stores {addr value : Int} {q : Pipeline} {left : Nat} (hKind : ins.kind = .store)
      (hAddr : s.memAddr = some addr) (hValue : s.storeValue = some value)
      (hAccess : Access p s addr (ins.kind == .load) q left) (hLeft : left ≤ 1) :
      MemoryMove p s ins
        ⟨{ q with
            memory := q.memory.poke addr value, units := q.units.snoop (q.memory.wrap addr) },
          { s with started := true, remaining := left - 1, done := true }, true, []⟩

/-- Going on with an access moves its slot. -/
theorem continueAccess_move {p q : Pipeline} {s : Slot} {ins : Instruction} {addr : Int}
    {left : Nat} (hKind : ins.kind = .load ∨ ins.kind = .store) (hAddr : s.memAddr = some addr)
    (hValue : ins.kind = .store → ∃ v, s.storeValue = some v)
    (hAccess : Access p s addr (ins.kind == .load) q left) :
    ∃ step, q.continueAccess { s with started := true, remaining := left } addr
        (ins.kind == .load) = .ok step ∧ MemoryMove p s ins step := by
  unfold continueAccess
  dsimp only
  by_cases hLeft : 0 < left - 1
  · rw [if_pos hLeft]
    exact ⟨_, rfl, .waits hKind hAddr hAccess (by omega)⟩
  · rw [if_neg hLeft]
    unfold completeAccess
    rcases hKind with hLoad | hStore
    · rw [if_pos (beq_iff_eq.mpr hLoad)]
      exact ⟨_, rfl, .loads hLoad hAddr hAccess (by omega)⟩
    · rw [if_neg (by rw [hStore]; decide)]
      obtain ⟨v, hGiven⟩ := hValue hStore
      refine ⟨_, ?_, .stores hStore hAddr hGiven hAccess (by omega)⟩
      split
      · rename_i hNone
        cases hGiven.symm.trans hNone
      · rename_i hSome
        cases hGiven.symm.trans hSome
        rfl

/-- The stage of Memory moves its slot: it does not fail if the slot has its address and its value.
-/
theorem memoryStage_move (p : Pipeline) {s : Slot} {ins : Instruction} (hIns : s.ins = some ins)
    (hAddr : ins.kind = .load ∨ ins.kind = .store → ∃ addr, s.memAddr = some addr)
    (hValue : ins.kind = .store → ∃ v, s.storeValue = some v) :
    ∃ step, p.memoryStage s = .ok step ∧ MemoryMove p s ins step := by
  have hDecoded : s.decoded = .ok ins := Slot.decoded_iff.mpr hIns
  by_cases hKind : ins.kind = .load ∨ ins.kind = .store
  · have hAccessed : (ins.kind != .load && ins.kind != .store) = false := by
      rcases hKind with hKind | hKind <;> rw [hKind] <;> rfl
    obtain ⟨addr, hGiven⟩ := hAddr hKind
    unfold memoryStage
    rw [hDecoded]
    simp only [ok_bind, hAccessed, Bool.false_eq_true, if_false]
    split
    · rename_i hNone
      rw [hGiven] at hNone
      cases hNone
    rename_i addr' hSome
    obtain rfl : addr = addr' := Option.some.inj (hGiven.symm.trans hSome)
    by_cases hStarted : s.started = true
    · rw [if_pos hStarted]
      have hSame : s = { s with started := true, remaining := s.remaining } := by
        rw [← hStarted]
      have hMove := continueAccess_move hKind hGiven hValue (.goesOn hStarted : Access p s addr _ p _)
      rw [← hSame] at hMove
      exact hMove
    · rw [if_neg hStarted, beginAccess_eq, ok_bind]
      have hFresh : s.started = false := by simpa using hStarted
      cases hBegin : p.begunAccess addr (ins.kind == .load) with
      | mk ticks q =>
          cases ticks with
          | none => exact ⟨_, rfl, .refused hKind hGiven hFresh hBegin⟩
          | some ticks => exact continueAccess_move hKind hGiven hValue (.begins hFresh hBegin)
  · have hPasses : (ins.kind != .load && ins.kind != .store) = true := by
      simpa [not_or] using hKind
    refine ⟨⟨p, { s with done := true }, true, []⟩, ?_,
      .passes (fun h => hKind (.inl h)) fun h => hKind (.inr h)⟩
    unfold memoryStage
    rw [hDecoded]
    change (if (ins.kind != .load && ins.kind != .store) = true then _ else _) = _
    rw [if_pos hPasses]
    rfl

/-- How an instruction gets at the memory words that it reads in Execute: it reads none, or takes
the ports of all their banks at once, with no store in front of it. -/
inductive Burst (p : Pipeline) (ins : Instruction) (ops : Operands) (mem : Option Slot) :
    Memory → Prop
  | idle (hReads : ∀ acc : Accelerator, ins.kind = acc.kind → p.units.reads acc ins ops = []) :
      Burst p ins ops mem p.memory
  | taken {acc : Accelerator} (hKind : ins.kind = acc.kind)
      (hReads : p.units.reads acc ins ops ≠ []) (hFree : mem.any (·.isKind .store) = false)
      (hGranted : (p.memory.reserveBurst (p.units.reads acc ins ops) p.cycle
        (p.units.latency acc)).1 = []) :
      Burst p ins ops mem
        (p.memory.reserveBurst (p.units.reads acc ins ops) p.cycle (p.units.latency acc)).2

/-- A burst changes no words. -/
theorem Burst.words {p : Pipeline} {ins : Instruction} {ops : Operands} {mem : Option Slot}
    {m : Memory} (h : Burst p ins ops mem m) : p.memory.SameWords m := by
  cases h with
  | idle => exact Memory.SameWords.refl _
  | taken => exact Memory.sameWords_reserveBurst _ _ _ _

/-- A burst keeps the memory sound. -/
theorem Burst.sound {p : Pipeline} {ins : Instruction} {ops : Operands} {mem : Option Slot}
    {m : Memory} (h : Burst p ins ops mem m) (hSound : p.memory.Sound) : m.Sound := by
  cases h with
  | idle => exact hSound
  | taken => exact hSound.reserveBurst _ _ _

/-- What Execute can do with a slot, whose operands are then those of `f`. -/
inductive ExecuteMove (p : Pipeline) (s : Slot) (ins : Instruction) (mem : Option Slot)
    (f : Hazard.Forwarding) : StageStep → Prop
  | advances (hStarted : s.started = true) :
      ExecuteMove p s ins mem f ⟨p, advance s, (advance s).done, []⟩
  | unready (hStarted : s.started = false) (hReady : f.ready = false) :
      ExecuteMove p s ins mem f
        ⟨p, { s with operands := f.operands, sources := f.sources }, false, [.loadUse]⟩
  | ordered {acc : Accelerator} (hStarted : s.started = false) (hReady : f.ready = true)
      (hKind : ins.kind = acc.kind) (hReads : p.units.reads acc ins f.operands ≠ [])
      (hAhead : mem.any (·.isKind .store) = true) :
      ExecuteMove p s ins mem f
        ⟨p, { s with operands := f.operands, sources := f.sources, remaining := 1 }, false,
          [.memoryOrder]⟩
  | blocked {acc : Accelerator} (hStarted : s.started = false) (hReady : f.ready = true)
      (hKind : ins.kind = acc.kind)
      (hBlocked : (p.memory.reserveBurst (p.units.reads acc ins f.operands) p.cycle
        (p.units.latency acc)).1 ≠ []) :
      ExecuteMove p s ins mem f
        (bankConflict
          { p with
            memory := (p.memory.reserveBurst (p.units.reads acc ins f.operands) p.cycle
              (p.units.latency acc)).2 }
          { s with operands := f.operands, sources := f.sources, remaining := 1 } ins
          (p.memory.reserveBurst (p.units.reads acc ins f.operands) p.cycle
            (p.units.latency acc)).1)
  | starts {w : Work} {units : Units} {m : Memory} (hStarted : s.started = false)
      (hReady : f.ready = true) (hBurst : Burst p ins f.operands mem m)
      (hPerform : perform p.units p.memory.peek ins f.operands s.pc = .ok (w, units)) :
      ExecuteMove p s ins mem f
        ⟨{ p with memory := m, units },
          advance
            { s.doing w with
              operands := f.operands, sources := f.sources, remaining := p.units.beats ins
              stalled := false, started := true },
          p.units.beats ins - 1 == 0, []⟩

/-! No stage changes the instruction of its slot or takes back a start, and nothing is done in Execute
that has not started. -/

theorem MemoryMove.ins_eq {p : Pipeline} {s : Slot} {ins : Instruction} {step : StageStep}
    (h : MemoryMove p s ins step) : step.slot.ins = s.ins := by
  cases h <;> rfl

section Execute

variable {p : Pipeline} {s : Slot} {ins : Instruction} {mem : Option Slot}
  {f : Hazard.Forwarding} {step : StageStep}

/-- A slot keeps its instruction in Execute. -/
theorem ExecuteMove.ins_eq (h : ExecuteMove p s ins mem f step) : step.slot.ins = s.ins := by
  cases h <;> rfl

/-- A slot that has not started by the end has not started before. -/
theorem ExecuteMove.fresh (h : ExecuteMove p s ins mem f step)
    (hFresh : step.slot.started = false) : s.started = false := by
  cases h with
  | advances => exact hFresh
  | unready hIs => exact hIs
  | ordered hIs => exact hIs
  | blocked hIs => exact hIs
  | starts hIs => exact hIs

/-- Nor is it done. -/
theorem ExecuteMove.not_done (h : ExecuteMove p s ins mem f step)
    (hFresh : step.slot.started = false) : step.done = false := by
  cases h with
  | advances hIs => cases hIs.symm.trans hFresh
  | unready => rfl
  | ordered => rfl
  | blocked => rfl
  | starts => cases hFresh

end Execute

/-- Looking for a kind in a slot does not fail if the slot has an instruction. -/
theorem holds_ok {slot : Option Slot} (h : ∀ m, slot = some m → ∃ ins, m.ins = some ins) (k : Kind) :
    Hazard.holds k slot = .ok (slot.any (·.isKind k)) := by
  cases slot with
  | none => rfl
  | some m =>
      obtain ⟨ins, hIns⟩ := h m rfl
      rw [Hazard.holds_of_ins hIns, Option.any_some, Slot.isKind_of_ins hIns]

/-- A block is read word by word. -/
theorem readBlock_of_sameWords {m m' : Memory} (h : m.SameWords m') (addrs : List Int) :
    m'.readBlock addrs = addrs.map m.peek := by
  unfold Memory.readBlock
  rw [h.peek]

/-- The banks that keep an operation waiting, and the memory with the ports that it takes. -/
def burst (p : Pipeline) (acc : Accelerator) (ins : Instruction) (ops : Operands) :
    List Nat × Memory :=
  if (p.units.reads acc ins ops).isEmpty then ([], p.memory)
  else p.memory.reserveBurst (p.units.reads acc ins ops) p.cycle (p.units.latency acc)

/-- Handing an operation to its unit, step by step. -/
theorem issueAccelerator_eq (p : Pipeline) (s : Slot) (ins : Instruction) (acc : Accelerator)
    (mem : Option Slot) :
    p.issueAccelerator s ins acc mem =
      (Hazard.holds .store mem >>= fun ahead =>
        if (!(p.units.reads acc ins s.operands).isEmpty && ahead) = true then
          .ok ⟨p, s, false, [.memoryOrder]⟩
        else if (!(p.burst acc ins s.operands).1.isEmpty) = true then
          .ok (bankConflict { p with memory := (p.burst acc ins s.operands).2 } s ins
            (p.burst acc ins s.operands).1)
        else
          (p.units.execute acc ins s.operands
            ((p.burst acc ins s.operands).2.readBlock (p.units.reads acc ins s.operands))).1 >>=
            fun r => .ok
              ⟨{ p with
                  memory := (p.burst acc ins s.operands).2
                  units := (p.units.execute acc ins s.operands
                    ((p.burst acc ins s.operands).2.readBlock
                      (p.units.reads acc ins s.operands))).2 },
                { s with
                  result := some r.value, saturated := r.saturated
                  remaining := p.units.latency acc },
                true, []⟩) :=
  rfl

/-- Every accelerator has its own kind. -/
theorem accelerator_eq_of_kind {acc acc' : Accelerator} (h : acc.kind = acc'.kind) : acc = acc' := by
  cases acc <;> cases acc' <;> first | rfl | cases h

/-- What becomes of an operation that is handed to its unit. -/
theorem issueAccelerator_cases {p : Pipeline} (s : Slot) {word : Int} {acc : Accelerator}
    {mem : Option Slot} (hFit : p.units.Fit) (hKind : (Instruction.decode word).kind = acc.kind)
    (hMem : ∀ m, mem = some m → ∃ ins, m.ins = some ins) :
    let ins := Instruction.decode word
    let addrs := p.units.reads acc ins s.operands
    let taken := p.memory.reserveBurst addrs p.cycle (p.units.latency acc)
    (addrs ≠ [] ∧ mem.any (·.isKind .store) = true ∧
      p.issueAccelerator s ins acc mem = .ok ⟨p, s, false, [.memoryOrder]⟩) ∨
    (taken.1 ≠ [] ∧
      p.issueAccelerator s ins acc mem =
        .ok (bankConflict { p with memory := taken.2 } s ins taken.1)) ∨
    ∃ r m, Burst p ins s.operands mem m ∧
      (p.units.execute acc ins s.operands (addrs.map p.memory.peek)).1 = .ok r ∧
      p.issueAccelerator s ins acc mem =
        .ok ⟨{ p with
            memory := m
            units := (p.units.execute acc ins s.operands (addrs.map p.memory.peek)).2 },
          { s with
            result := some r.value, saturated := r.saturated, remaining := p.units.latency acc },
          true, []⟩ := by
  intro ins addrs taken
  obtain ⟨r, hExecute, -⟩ := Units.execute_ok hFit hKind s.operands
    (addrs.map p.memory.peek) (List.length_map _)
  rw [issueAccelerator_eq, holds_ok hMem, ok_bind]
  have hWords : p.memory.SameWords (p.burst acc ins s.operands).2 := by
    unfold burst
    split
    · exact Memory.SameWords.refl _
    · exact Memory.sameWords_reserveBurst _ _ _ _
  rw [readBlock_of_sameWords hWords, hExecute]
  by_cases hNone : addrs = []
  · have hIdle : p.burst acc ins s.operands = ([], p.memory) := by
      unfold burst
      rw [if_pos (by rw [List.isEmpty_iff]; exact hNone)]
    refine .inr (.inr ⟨r, p.memory, .idle ?_, rfl, ?_⟩)
    · intro acc' hKind'
      rw [accelerator_eq_of_kind (hKind'.symm.trans hKind)]
      exact hNone
    · rw [hIdle, if_neg (by rw [show p.units.reads acc ins s.operands = [] from hNone]; simp),
        if_neg (by simp)]
      rfl
  · have hBurst : p.burst acc ins s.operands = taken := by
      unfold burst
      rw [if_neg (by rw [List.isEmpty_iff]; exact hNone)]
    by_cases hAhead : mem.any (·.isKind .store) = true
    · refine .inl ⟨hNone, hAhead, ?_⟩
      rw [if_pos (by simpa [hAhead] using hNone)]
    · have hFree : mem.any (·.isKind .store) = false := by simpa using hAhead
      by_cases hGranted : taken.1 = []
      · refine .inr (.inr ⟨r, taken.2, .taken hKind hNone hFree hGranted, rfl, ?_⟩)
        rw [hBurst, if_neg (by simp [hFree]), if_neg (by simp [hGranted])]
        rfl
      · refine .inr (.inl ⟨hGranted, ?_⟩)
        rw [hBurst, if_neg (by simp [hFree]), if_pos (by simpa using hGranted)]

/-- The other instructions start in Execute at once. -/
theorem issue_plain {p : Pipeline} {s : Slot} {ins : Instruction} (mem : Option Slot)
    (hPlain : ∀ acc : Accelerator, ins.kind ≠ acc.kind) (hBlank : s.work = {})
    {w : Work} {units : Units}
    (hPerform : perform p.units p.memory.peek ins s.operands s.pc = .ok (w, units)) :
    p.issue s ins mem = .ok ⟨p, s.doing w, true, []⟩ ∧ units = p.units := by
  obtain ⟨pc, word, ins', operands, sources, result, stalled, started, done, remaining, memAddr,
    storeValue, taken, target, saturated, seq⟩ := s
  simp only [Slot.work, Work.mk.injEq] at hBlank
  obtain ⟨rfl, rfl, rfl, rfl, rfl, rfl⟩ := hBlank
  unfold perform at hPerform
  unfold issue
  cases hKind : ins.kind <;> simp only [hKind] at hPerform ⊢
  case alu =>
    obtain ⟨v, hValue, hDone⟩ := bind_ok hPerform
    cases hDone
    rw [hValue]
    exact ⟨rfl, rfl⟩
  case branch =>
    obtain ⟨⟨taken, target⟩, hValue, hDone⟩ := bind_ok hPerform
    cases hDone
    rw [hValue]
    exact ⟨rfl, rfl⟩
  case load =>
    obtain ⟨base, hBase, hDone⟩ := bind_ok hPerform
    cases hDone
    rw [hBase]
    exact ⟨rfl, rfl⟩
  case store =>
    obtain ⟨base, hBase, hRest⟩ := bind_ok hPerform
    obtain ⟨value, hValue, hDone⟩ := bind_ok hRest
    cases hDone
    rw [hBase, hValue]
    exact ⟨rfl, rfl⟩
  case system | illegal =>
    cases hPerform
    exact ⟨rfl, rfl⟩
  case mac => exact absurd hKind (hPlain .mac)
  case relu => exact absurd hKind (hPlain .relu)
  case conv2d => exact absurd hKind (hPlain .conv2d)
  case fir => exact absurd hKind (hPlain .fir)
  case pool => exact absurd hKind (hPlain .pool)

/-- What becomes of an instruction that Execute has all operands for. -/
theorem issue_cases (p : Pipeline) (s : Slot) (word : Int) (mem : Option Slot)
    (hFit : p.units.Fit) (hBlank : s.work = {}) (hRemaining : s.remaining = 1)
    (hOps : s.operands.Complete (Instruction.decode word))
    (hMem : ∀ m, mem = some m → ∃ ins, m.ins = some ins) :
    let ins := Instruction.decode word
    (∃ acc : Accelerator, ins.kind = acc.kind ∧ p.units.reads acc ins s.operands ≠ [] ∧
      mem.any (·.isKind .store) = true ∧
      p.issue s ins mem = .ok ⟨p, s, false, [.memoryOrder]⟩) ∨
    (∃ acc : Accelerator, ins.kind = acc.kind ∧
      let taken := p.memory.reserveBurst (p.units.reads acc ins s.operands) p.cycle
        (p.units.latency acc)
      taken.1 ≠ [] ∧
        p.issue s ins mem = .ok (bankConflict { p with memory := taken.2 } s ins taken.1)) ∨
    ∃ w units m, Burst p ins s.operands mem m ∧
      perform p.units p.memory.peek ins s.operands s.pc = .ok (w, units) ∧
      p.issue s ins mem =
        .ok ⟨{ p with memory := m, units }, { s.doing w with remaining := p.units.beats ins },
          true, []⟩ := by
  intro ins
  by_cases hUnit : ∃ acc : Accelerator, ins.kind = acc.kind
  · obtain ⟨acc, hKind⟩ := hUnit
    have hOf : Accelerator.ofKind? ins.kind = some acc := by
      rw [hKind]
      exact acc.ofKind?_kind
    have hIssue : p.issue s ins mem = p.issueAccelerator s ins acc mem := by
      unfold issue
      cases acc <;> simp only [hKind, Accelerator.kind, Accelerator.ofKind?]
    rw [hIssue]
    rcases issueAccelerator_cases s hFit hKind hMem with
      ⟨hReads, hAhead, hStep⟩ | ⟨hBlocked, hStep⟩ | ⟨r, m, hBurst, hExecute, hStep⟩
    · exact .inl ⟨acc, hKind, hReads, hAhead, hStep⟩
    · exact .inr (.inl ⟨acc, hKind, hBlocked, hStep⟩)
    · obtain ⟨r', hExecute', hPerform, -⟩ := perform_accelerator hFit hKind p.memory.peek
        s.operands s.pc
      obtain rfl : r = r' := by
        rw [hExecute] at hExecute'
        exact Except.ok.inj hExecute'
      refine .inr (.inr ⟨_, _, m, hBurst, hPerform, ?_⟩)
      rw [hStep]
      obtain ⟨pc, word, ins', operands, sources, result, stalled, started, done, remaining,
        memAddr, storeValue, taken, target, saturated, seq⟩ := s
      simp only [Slot.work, Work.mk.injEq] at hBlank
      obtain ⟨rfl, rfl, rfl, rfl, rfl, rfl⟩ := hBlank
      unfold Units.beats
      rw [hOf]
      rfl
  · have hPlain : ∀ acc : Accelerator, ins.kind ≠ acc.kind := fun acc hKind => hUnit ⟨acc, hKind⟩
    obtain ⟨w, units, hPerform, -⟩ := perform_ok hFit hOps p.memory.peek s.pc
    obtain ⟨hIssue, rfl⟩ := issue_plain mem hPlain hBlank hPerform
    refine .inr (.inr ⟨w, _, p.memory, .idle fun acc hKind => absurd hKind (hPlain acc), hPerform,
      ?_⟩)
    rw [hIssue]
    have hBeats : p.units.beats ins = 1 := by
      unfold Units.beats
      cases hOf : Accelerator.ofKind? ins.kind with
      | none => rfl
      | some acc =>
          refine absurd ?_ (hPlain acc)
          cases hKind : ins.kind <;> rw [hKind] at hOf <;> cases hOf <;> rfl
    rw [hBeats, ← hRemaining]
    rfl

/-- The stage of Execute moves its slot: it does not fail if the slot is as Decode has left it. -/
theorem executeStage_move {p : Pipeline} {s : Slot} {word : Int} {mem wb : Option Slot}
    (hIns : s.ins = some (Instruction.decode word)) (hFit : p.units.Fit)
    (hBlank : s.started = false → s.work = {})
    (hOps : s.started = false →
      (Hazard.forward (Instruction.decode word) ⟨s.operands, s.sources⟩ mem wb).ready = true →
      (Hazard.forward (Instruction.decode word) ⟨s.operands, s.sources⟩ mem wb).operands.Complete
        (Instruction.decode word))
    (hMem : ∀ m, mem = some m → ∃ ins, m.ins = some ins) :
    ∃ step, p.executeStage s mem wb = .ok step ∧
      ExecuteMove p s (Instruction.decode word) mem
        (Hazard.forward (Instruction.decode word) ⟨s.operands, s.sources⟩ mem wb) step := by
  have hDecoded : s.decoded = .ok (Instruction.decode word) := Slot.decoded_iff.mpr hIns
  unfold executeStage
  by_cases hStarted : s.started = true
  · rw [if_pos hStarted]
    exact ⟨_, rfl, .advances hStarted⟩
  · have hFresh : s.started = false := by simpa using hStarted
    rw [if_neg hStarted, hDecoded, ok_bind]
    generalize hForward :
      Hazard.forward (Instruction.decode word) ⟨s.operands, s.sources⟩ mem wb = f at *
    by_cases hReady : f.ready = true
    · dsimp only
      rw [if_neg (by simp [hReady])]
      rcases issue_cases p
          { s with operands := f.operands, sources := f.sources, remaining := 1 } word mem hFit
          (hBlank hFresh) rfl (hOps hFresh hReady) hMem with
        ⟨acc, hKind, hReads, hAhead, hStep⟩ | ⟨acc, hKind, hBlocked, hStep⟩ |
          ⟨w, units, m, hBurst, hPerform, hStep⟩
      · rw [hStep]
        exact ⟨_, rfl, .ordered hFresh hReady hKind hReads hAhead⟩
      · rw [hStep]
        exact ⟨_, rfl, .blocked hFresh hReady hKind hBlocked⟩
      · rw [hStep]
        exact ⟨_, rfl, .starts hFresh hReady hBurst hPerform⟩
    · have hUnready : f.ready = false := by simpa using hReady
      dsimp only
      rw [if_pos (by simp [hUnready])]
      exact ⟨_, rfl, .unready hFresh hUnready⟩

end Pipeline

end AccelPipe

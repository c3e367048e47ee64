import AccelPipe.Proofs.Pipeline.Front

/-! A tick taken apart: what each stage contributes to it. -/
namespace AccelPipe.Pipeline

/-- The tick of Memory: what it makes of its slot, and whether it becomes free. -/
inductive MemoryRound (p : Pipeline) (ins : Instruction) : Option Slot → Making → Bool → Prop
  | empty : MemoryRound p ins none { pipeline := p } true
  | moves {s : Slot} {step : StageStep} (hMove : MemoryMove p s ins step) :
      MemoryRound p ins (some s)
        { pipeline := step.pipeline
          next := if step.done then { Slots.bubbles with writeback := some step.slot.enter }
            else { Slots.bubbles with memory := some step.slot }
          stalls := step.stalls }
        step.done

/-- The tick of Execute: what it makes of its slot, whether it becomes free, and what it tells the
stages in front of it. -/
inductive ExecuteRound (m : Making) (ins : Instruction) (cur : Slots) (memoryFree : Bool) :
    Option Slot → Making → Bool → Control → Prop
  | empty : ExecuteRound m ins cur memoryFree none m true .goOn
  | moves {s : Slot} {step : StageStep}
      (hMove : ExecuteMove m.pipeline s ins cur.memory
        (Hazard.forward ins ⟨s.operands, s.sources⟩ cur.memory cur.writeback) step) :
      ExecuteRound m ins cur memoryFree (some s)
        { m with
          pipeline := step.pipeline
          next := if step.done && memoryFree then { m.next with memory := some step.slot.enter }
            else { m.next with execute := some { step.slot with stalled := true } }
          stalls := m.stalls ++ step.stalls }
        (step.done && memoryFree) (controlOf s step.slot)

/-! An instruction tells those behind it something only in the tick in which it starts. -/

theorem controlOf_fresh {s t : Slot} (h : t.started = false) : controlOf s t = .goOn := by
  unfold controlOf
  simp [h]

theorem controlOf_started_before {s t : Slot} (h : s.started = true) : controlOf s t = .goOn := by
  unfold controlOf
  simp [h]

/-- A slot in Decode, with its instruction and the operands that it reads there. -/
def reading (p : Pipeline) (wb : Option Slot) (s : Slot) : Slot :=
  let ins := s.ins.getD (Instruction.decode s.word)
  let r := Hazard.readOperands ins p.registers wb
  { s with ins := some ins, operands := r.operands, sources := r.sources }

/-- Why a slot in Decode has to wait. -/
def decodeReason (cur : Slots) (memoryFree : Bool) (s : Slot) : Except Failure (Option StallCause) :=
  Hazard.decodeStall ((Accelerator.all.filter Accelerator.blocking).map Accelerator.kind)
    (s.ins.getD (Instruction.decode s.word)) cur.execute cur.memory memoryFree

/-- The tick of Decode: what it makes of its slot, and whether it becomes free. -/
inductive DecodeRound (m : Making) (cur : Slots) (memoryFree executeFree : Bool) :
    Control → Option Slot → Making → Bool → Prop
  | empty : DecodeRound m cur memoryFree executeFree .goOn none m true
  | moves {s : Slot} (hFree : executeFree = true)
      (hReason : decodeReason cur memoryFree s = .ok none) :
      DecodeRound m cur memoryFree executeFree .goOn (some s)
        { m with next := { m.next with
            execute := some (m.pipeline.reading cur.writeback s).enter } }
        true
  | waits {s : Slot} {reason : Option StallCause}
      (hReason : decodeReason cur memoryFree s = .ok reason)
      (hStays : (executeFree && reason.isNone) = false) :
      DecodeRound m cur memoryFree executeFree .goOn (some s)
        { m with
          next := { m.next with
            decode := some { m.pipeline.reading cur.writeback s with stalled := true } }
          stalls := m.stalls ++ if executeFree then reason.toList else [] }
        false
  | flushed {control : Control} {slot : Option Slot} (hControl : control ≠ .goOn) :
      DecodeRound m cur memoryFree executeFree control slot
        { m with flushed := slot.isSome || cur.fetch.isSome } true

/-! No stage fails on slots that hold their instructions. -/

theorem makeMemory_round (p : Pipeline) {ins : Instruction} {slot : Option Slot}
    (hIns : ∀ s, slot = some s → s.ins = some ins ∧
      (ins.kind = .load ∨ ins.kind = .store → ∃ addr, s.memAddr = some addr) ∧
      (ins.kind = .store → ∃ v, s.storeValue = some v)) :
    ∃ m free, makeMemory { pipeline := p } slot = .ok (m, free) ∧
      MemoryRound p ins slot m free := by
  cases slot with
  | none => exact ⟨_, _, rfl, .empty⟩
  | some s =>
      obtain ⟨hIs, hAddr, hValue⟩ := hIns s rfl
      obtain ⟨step, hStep, hMove⟩ := memoryStage_move p hIs hAddr hValue
      refine ⟨_, _, ?_, .moves hMove⟩
      unfold makeMemory
      dsimp only
      rw [hStep]
      rfl

theorem makeExecute_round {m : Making} {word : Int} {cur : Slots} (memoryFree : Bool)
    (hFit : m.pipeline.units.Fit)
    (hIns : ∀ s, cur.execute = some s → s.ins = some (Instruction.decode word) ∧
      (s.started = false → s.work = {}) ∧
      (s.started = false →
        (Hazard.forward (Instruction.decode word) ⟨s.operands, s.sources⟩ cur.memory
          cur.writeback).ready = true →
        (Hazard.forward (Instruction.decode word) ⟨s.operands, s.sources⟩ cur.memory
          cur.writeback).operands.Complete (Instruction.decode word)))
    (hMem : ∀ s, cur.memory = some s → ∃ ins, s.ins = some ins) :
    ∃ m' free control, makeExecute m cur memoryFree = .ok (m', free, control) ∧
      ExecuteRound m (Instruction.decode word) cur memoryFree cur.execute m' free control := by
  unfold makeExecute
  cases hSlot : cur.execute with
  | none => exact ⟨_, _, _, rfl, .empty⟩
  | some s =>
      obtain ⟨hIs, hBlank, hOps⟩ := hIns s hSlot
      obtain ⟨step, hStep, hMove⟩ := executeStage_move hIs hFit hBlank hOps hMem
      refine ⟨_, _, _, ?_, .moves hMove⟩
      dsimp only
      rw [hStep]
      rfl

theorem loadsOneOf_ok {slot : Option Slot} (h : ∀ s, slot = some s → ∃ ins, s.ins = some ins)
    (registers : List Nat) : ∃ b, Hazard.loadsOneOf registers slot = .ok b := by
  cases slot with
  | none => exact ⟨false, rfl⟩
  | some s =>
      obtain ⟨ins, hIns⟩ := h s rfl
      exact ⟨_, Hazard.loadsOneOf_of_ins hIns registers⟩

theorem decodeStall_ok {ex mem : Option Slot} (hEx : ∀ s, ex = some s → ∃ ins, s.ins = some ins)
    (hMem : ∀ s, mem = some s → ∃ ins, s.ins = some ins) (blocking : List Kind)
    (ins : Instruction) (memoryFree : Bool) :
    ∃ reason, Hazard.decodeStall blocking ins ex mem memoryFree = .ok reason := by
  have hLoad : ∃ b, Hazard.waitsForLoad ins ex mem memoryFree = .ok b := by
    unfold Hazard.waitsForLoad
    obtain ⟨first, hFirst⟩ := loadsOneOf_ok hEx (Hazard.sourceRegisters ins)
    obtain ⟨second, hSecond⟩ := loadsOneOf_ok hMem (Hazard.sourceRegisters ins)
    dsimp only
    rw [hFirst, hSecond]
    cases (Hazard.sourceRegisters ins).isEmpty <;> cases first <;> exact ⟨_, rfl⟩
  have hUnit : ∃ b, Hazard.waitsForUnit blocking ins ex mem = .ok b := by
    unfold Hazard.waitsForUnit
    rw [holds_ok hEx, holds_ok hMem]
    cases blocking.contains ins.kind <;> cases ex.any (·.isKind ins.kind) <;> exact ⟨_, rfl⟩
  obtain ⟨load, hLoad⟩ := hLoad
  obtain ⟨unit, hUnit⟩ := hUnit
  unfold Hazard.decodeStall
  rw [hLoad, hUnit]
  cases load <;> cases unit <;> exact ⟨_, rfl⟩

theorem makeDecode_round (m : Making) {cur : Slots} (memoryFree executeFree : Bool)
    (control : Control) (hEx : ∀ s, cur.execute = some s → ∃ ins, s.ins = some ins)
    (hMem : ∀ s, cur.memory = some s → ∃ ins, s.ins = some ins) :
    ∃ m' free, makeDecode m cur memoryFree executeFree control = .ok (m', free) ∧
      DecodeRound m cur memoryFree executeFree control cur.decode m' free := by
  unfold makeDecode
  cases control with
  | goOn =>
      cases hSlot : cur.decode with
      | none => exact ⟨_, _, rfl, .empty⟩
      | some s =>
          obtain ⟨reason, hReason⟩ := decodeStall_ok hEx hMem
            ((Accelerator.all.filter Accelerator.blocking).map Accelerator.kind)
            (s.ins.getD (Instruction.decode s.word)) memoryFree
          have hStage : m.pipeline.decodeStage s cur memoryFree =
              .ok (m.pipeline.reading cur.writeback s, reason) := by
            unfold decodeStage
            dsimp only
            rw [hReason]
            rfl
          dsimp only
          rw [hStage]
          by_cases hMoves : (executeFree && reason.isNone) = true
          · obtain ⟨hFree, hNone⟩ := Bool.and_eq_true_iff.mp hMoves
            obtain rfl := Option.isNone_iff_eq_none.mp hNone
            refine ⟨_, _, ?_, .moves hFree hReason⟩
            rw [ok_bind]
            dsimp only
            rw [if_pos hMoves]
            rfl
          · refine ⟨_, _, ?_, .waits hReason (Bool.eq_false_iff.mpr hMoves)⟩
            rw [ok_bind]
            dsimp only
            rw [if_neg hMoves]
            rfl
  | redirect target => exact ⟨_, _, rfl, .flushed nofun⟩
  | stop => exact ⟨_, _, rfl, .flushed nofun⟩

/-! What the stages leave behind. -/

theorem ExecuteRound.writeback {m m' : Making} {cur : Slots} {ex : Option Slot}
    {free free' : Bool} {control : Control} (h : ExecuteRound m ins cur free ex m' free' control) :
    m'.next.writeback = m.next.writeback := by
  cases h with
  | empty => rfl
  | moves hMove =>
      dsimp only
      split <;> rfl

theorem DecodeRound.next_memory {m m' : Making} {cur : Slots} {memoryFree executeFree free : Bool}
    {control : Control} {id : Option Slot}
    (h : DecodeRound m cur memoryFree executeFree control id m' free) :
    m'.next.memory = m.next.memory := by
  cases h <;> rfl

theorem DecodeRound.next_writeback {m m' : Making} {cur : Slots}
    {memoryFree executeFree free : Bool} {control : Control} {id : Option Slot}
    (h : DecodeRound m cur memoryFree executeFree control id m' free) :
    m'.next.writeback = m.next.writeback := by
  cases h <;> rfl

/-- A tick of Decode: its instruction goes on, is flushed, or waits for one reason, which counts as
a stall if Execute is free. -/
inductive Handed (m : Making) (id : Option Slot) (executeFree : Bool) (m' : Making) :
    Bool → Control → Prop
  | flushed {control : Control} (hControl : control ≠ .goOn) (hNext : m'.next = m.next)
      (hStalls : m'.stalls = m.stalls) : Handed m id executeFree m' true control
  | empty (hNone : id = none) (hNext : m'.next = m.next) (hStalls : m'.stalls = m.stalls) :
      Handed m id executeFree m' true .goOn
  | moves {t : Slot} (hSome : id.isSome = true) (hFree : executeFree = true)
      (hNext : m'.next = { m.next with execute := some t }) (hFresh : t.started = false)
      (hStalls : m'.stalls = m.stalls) : Handed m id executeFree m' true .goOn
  | waits {t : Slot} (hSome : id.isSome = true) (hNext : m'.next = { m.next with decode := some t })
      (hStalls : m'.stalls.length = m.stalls.length + executeFree.toNat) :
      Handed m id executeFree m' false .goOn

theorem DecodeRound.handed {m m' : Making} {cur : Slots} {memoryFree executeFree free : Bool}
    {control : Control} {id : Option Slot}
    (h : DecodeRound m cur memoryFree executeFree control id m' free) :
    Handed m id executeFree m' free control := by
  cases h with
  | empty => exact .empty rfl rfl rfl
  | moves hFree => exact .moves rfl hFree rfl rfl rfl
  | @waits s reason hReason hStays =>
      refine .waits rfl rfl ?_
      rw [List.length_append]
      cases executeFree with
      | false => rfl
      | true =>
          cases reason with
          | none => cases hStays
          | some cause => rfl
  | flushed hControl => exact .flushed hControl rfl rfl

/-- What Fetch changes besides the slots. -/
theorem madeFetch_pipeline (m : Making) (fe : Option Slot) (free : Bool) (control : Control) :
    (madeFetch m fe free control).pipeline.memory = m.pipeline.memory ∧
      (madeFetch m fe free control).stalls = m.stalls ∧
      ((madeFetch m fe free control).pipeline.fetchStopped =
        match control with
        | .stop => true
        | _ => m.pipeline.fetchStopped) ∧
      ((madeFetch m fe free control).pipeline.flushes =
        match control with
        | .redirect _ => m.pipeline.flushes + 1
        | _ => m.pipeline.flushes) := by
  unfold madeFetch followOn
  cases control with
  | redirect target => exact ⟨rfl, rfl, rfl, rfl⟩
  | stop => exact ⟨rfl, rfl, rfl, rfl⟩
  | goOn =>
      cases fe with
      | none => exact ⟨rfl, rfl, rfl, rfl⟩
      | some s =>
          dsimp only
          split
          · exact ⟨rfl, rfl, rfl, rfl⟩
          · split <;> exact ⟨rfl, rfl, rfl, rfl⟩

/-- What Fetch does to Decode. -/
theorem madeFetch_decode (m : Making) (fe : Option Slot) (free : Bool) (control : Control) :
    (madeFetch m fe free control).next.decode.isSome =
      (m.next.decode.isSome ||
        (control == .goOn && fe.isSome && !m.pipeline.fetchStopped && free)) := by
  unfold madeFetch followOn
  cases control with
  | redirect target => simp [fetchFrom]
  | stop => simp
  | goOn =>
      cases fe with
      | none => simp
      | some s =>
          dsimp only
          cases m.pipeline.fetchStopped <;> cases free <;> simp [fetchFrom]

end AccelPipe.Pipeline

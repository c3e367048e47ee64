import AccelPipe.Proofs.Pipeline.Back

/-! The stages in front of Execute. They hold the instructions that follow in the program, as long
as nothing in Execute says otherwise. -/
namespace AccelPipe

open Pipeline

/-- Decode and Fetch hold the instructions from an address on. -/
structure Front (program : Image) (stopped : Bool) (behind : Int) (id fe : Option Slot) : Prop where
  decode : ∀ s, id = some s → s.pc = behind ∧
    s.ins.getD (Instruction.decode s.word) = Instruction.decode (program.fetch behind) ∧
    s.work = {}
  fetch : ∀ s, fe = some s → s.pc = (if id.isSome then behind + 4 else behind) ∧ s.ins = none ∧
    s.work = {}
  live : fe.isSome = !stopped
  empty : stopped = true → id = none

namespace Machine

variable {a : Machine}

/-- What an instruction that starts in Execute tells the stages in front of it. -/
theorem controlOf_started (h : a.Sound) {s t : Slot} (hBefore : s.started = false)
    (hAfter : t.started = true) (hExecuted : t.Executed a) :
    (controlOf s t = .goOn ∧ a.next.pc = a.pc + 4 ∧ a.next.halted = false ∧
      a.next.flushes = a.flushes) ∨
    (∃ target : Nat, controlOf s t = .redirect target ∧ a.next.pc = target ∧
      a.next.halted = false ∧ a.next.flushes = a.flushes + 1) ∨
    (controlOf s t = .stop ∧ a.next.halted = true ∧ a.next.flushes = a.flushes) := by
  have hFits := performed_fits h
  have hTaken : t.taken = a.performed.1.taken := congrArg Work.taken hExecuted.work
  have hTarget : t.target = a.performed.1.target := congrArg Work.target hExecuted.work
  rw [next_pc, next_halted, next_flushes]
  unfold controlOf
  rw [hBefore, hAfter, hExecuted.ins, hTaken, hTarget]
  dsimp only [Bool.false_or, Bool.not_true]
  by_cases hJump : a.performed.1.taken = true
  · obtain ⟨hKind, target, hIs⟩ := hFits.target hJump
    rw [hJump, hKind, hIs]
    exact .inr (.inl ⟨target, rfl, rfl, rfl, rfl⟩)
  · rw [Bool.not_eq_true] at hJump
    rw [hJump]
    cases hKind : a.instruction.kind with
    | system => exact .inr (.inr ⟨rfl, rfl, rfl⟩)
    | illegal => exact .inr (.inr ⟨rfl, rfl, rfl⟩)
    | branch => exact .inl ⟨rfl, rfl, rfl, rfl⟩
    | _ => exact .inl ⟨rfl, rfl, rfl, rfl⟩

end Machine

/-- What Execute tells the stages in front of it over one tick, from what it holds before (`ex`, at
the machine `b`) to what it holds after (`ex'`, at the machine `b'`). -/
inductive Told (b : Machine) (ex : Option Slot) (b' : Machine) (ex' : Option Slot) : Control → Prop
  | goOn (hBehind : b'.behind ex' = b.behind ex) (hHalted : (b'.ahead ex').halted = (b.ahead ex).halted)
      (hFlushes : (b'.ahead ex').flushes = (b.ahead ex).flushes) : Told b ex b' ex' .goOn
  | redirect {target : Nat} (hBehind : b'.behind ex' = target) (hOpen : (b.ahead ex).halted = false)
      (hHalted : (b'.ahead ex').halted = false)
      (hFlushes : (b'.ahead ex').flushes = (b.ahead ex).flushes + 1) :
      Told b ex b' ex' (.redirect target)
  | stop (hHalted : (b'.ahead ex').halted = true)
      (hFlushes : (b'.ahead ex').flushes = (b.ahead ex).flushes) : Told b ex b' ex' .stop

/-- An instruction that has started tells what its successor is, wherever it has gone. -/
theorem Told.of_executed {b b' : Machine} {s t : Slot} {ex' : Option Slot} (hSound : b.Sound)
    (hStarted : t.started = true) (hExecuted : t.Executed b) (hBehind : b'.behind ex' = b.next.pc)
    (hAhead : b'.ahead ex' = b.next) : Told b (some s) b' ex' (controlOf s t) := by
  cases hBefore : s.started with
  | true =>
      have hControl : controlOf s t = .goOn := by
        unfold controlOf
        rw [hBefore]
        rfl
      rw [hControl]
      refine .goOn ?_ ?_ ?_
      · rw [hBehind, b.behind_started hBefore]
      · rw [hAhead, b.ahead_started hBefore]
      · rw [hAhead, b.ahead_started hBefore]
  | false =>
      have hOld : b.ahead (some s) = b := b.ahead_fresh hBefore
      rcases Machine.controlOf_started hSound hBefore hStarted hExecuted with
        ⟨hControl, hPc, hHalted, hFlushes⟩ | ⟨target, hControl, hPc, hHalted, hFlushes⟩ |
          ⟨hControl, hHalted, hFlushes⟩
      · rw [hControl]
        refine .goOn ?_ ?_ ?_
        · rw [hBehind, hPc, b.behind_fresh hBefore]
        · rw [hAhead, hOld, hHalted, hExecuted.running]
        · rw [hAhead, hOld, hFlushes]
      · rw [hControl]
        refine .redirect ?_ ?_ ?_ ?_
        · rw [hBehind, hPc]
        · rw [hOld, hExecuted.running]
        · rw [hAhead, hHalted]
        · rw [hAhead, hOld, hFlushes]
      · rw [hControl]
        refine .stop ?_ ?_
        · rw [hAhead, hHalted]
        · rw [hAhead, hOld, hFlushes]

/-- An instruction that has started leads to the same successor whether it goes on to Memory or stays
in Execute. -/
theorem Shifted.placed {a : Machine} {p q : Pipeline} {wb mem wb' mem' : Option Slot}
    (h : Shifted a p q wb mem wb' mem') {t : Slot} (hStarted : t.started = true) (done : Bool) :
    (((a.past wb).past wb').past
        (if (done && mem'.isNone) = true then some t.enter else mem')).behind
        (if (done && mem'.isNone) = true then none else some { t with stalled := true }) =
        ((a.past wb).past mem).next.pc ∧
      (((a.past wb).past wb').past
        (if (done && mem'.isNone) = true then some t.enter else mem')).ahead
        (if (done && mem'.isNone) = true then none else some { t with stalled := true }) =
        ((a.past wb).past mem).next := by
  have hSame := h.same
  by_cases hLeaves : (done && mem'.isNone) = true
  · obtain ⟨-, hFree⟩ := Bool.and_eq_true_iff.mp hLeaves
    rw [if_pos hLeaves, if_pos hLeaves]
    rw [Option.isNone_iff_eq_none.mp hFree, Machine.past_none] at hSame
    rw [Machine.past_some, hSame]
    exact ⟨rfl, rfl⟩
  · rw [if_neg hLeaves, if_neg hLeaves, hSame]
    exact ⟨Machine.behind_started _ hStarted, Machine.ahead_started _ hStarted⟩

namespace Back

variable {a : Machine} {p q : Pipeline} {wb mem : Option Slot}

theorem told_move {s : Slot} {wb' mem' : Option Slot} (h : Back a p wb mem (some s))
    (hShift : Shifted a p q wb mem wb' mem') {f : Hazard.Forwarding}
    (hForward : Hazard.forward ((a.past wb).past mem).instruction ⟨s.operands, s.sources⟩ mem wb = f)
    {step : StageStep} (hMove : ExecuteMove q s ((a.past wb).past mem).instruction mem f step) :
    Told ((a.past wb).past mem) (some s)
      (((a.past wb).past wb').past
        (if (step.done && mem'.isNone) = true then some step.slot.enter else mem'))
      (if (step.done && mem'.isNone) = true then none
        else some { step.slot with stalled := true })
      (controlOf s step.slot) := by
  obtain ⟨-, hCases⟩ := h.executeMove hShift hForward hMove
  have hSound := (h.rear.sound.past wb).past mem
  rcases hCases with ⟨hStarted, hExecuted, -⟩ | ⟨hFresh, hNot, -⟩
  · obtain ⟨hBehind, hAhead⟩ := hShift.placed hStarted step.done
    exact .of_executed hSound hStarted hExecuted hBehind hAhead
  · have hControl : controlOf s step.slot = .goOn := by
      unfold controlOf
      rw [hFresh]
      simp
    have hBefore := hMove.fresh hFresh
    rw [hControl, hNot, Bool.false_and, if_neg (by decide), if_neg (by decide), hShift.same]
    refine .goOn ?_ ?_ ?_
    · rw [Machine.behind_fresh _ hBefore]
      exact Machine.behind_fresh _ hFresh
    · rw [Machine.ahead_fresh _ hBefore]
      exact congrArg Machine.halted (Machine.ahead_fresh _ hFresh)
    · rw [Machine.ahead_fresh _ hBefore]
      exact congrArg Machine.flushes (Machine.ahead_fresh _ hFresh)

theorem told_empty {wb' mem' : Option Slot} (hShift : Shifted a p q wb mem wb' mem') :
    Told ((a.past wb).past mem) none (((a.past wb).past wb').past mem') none .goOn := by
  rw [hShift.same]
  exact .goOn rfl rfl rfl

end Back

end AccelPipe

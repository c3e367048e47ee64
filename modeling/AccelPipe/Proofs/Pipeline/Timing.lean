import AccelPipe.Proofs.Memory.Ports
import AccelPipe.Proofs.Pipeline.Follows

/-! How long the stages keep the ports of the memory. -/
namespace AccelPipe

theorem Precision.one_le_beats (p : Precision) (elements : Nat) : 1 ≤ p.beats elements :=
  Nat.le_max_left _ _

namespace Units

variable {u v : Units}

theorem one_le_latency (u : Units) (acc : Accelerator) : 1 ≤ u.latency acc := by
  cases acc with
  | mac | relu => exact Nat.le_refl 1
  | conv2d | fir | pool => exact Precision.one_le_beats _ _

theorem beats_of_kind {ins : Instruction} {acc : Accelerator} (h : ins.kind = acc.kind) :
    u.beats ins = u.latency acc := by
  unfold beats
  rw [h, acc.ofKind?_kind]

theorem one_le_beats (u : Units) (ins : Instruction) : 1 ≤ u.beats ins := by
  unfold beats
  split
  · exact u.one_le_latency _
  · exact Nat.le_refl 1

/-- An instruction that takes more than one tick is one of an accelerator. -/
theorem accelerated_of_beats {ins : Instruction} (h : 1 < u.beats ins) :
    ∃ acc : Accelerator, ins.kind = acc.kind := by
  unfold beats at h
  cases hOf : Accelerator.ofKind? ins.kind with
  | none =>
      rw [hOf] at h
      exact absurd h (Nat.lt_irrefl 1)
  | some acc =>
      refine ⟨acc, ?_⟩
      cases hKind : ins.kind <;> rw [hKind] at hOf <;> cases hOf <;> rfl

theorem beats_eq_of_frame (h : u.frame = v.frame) (ins : Instruction) :
    u.beats ins = v.beats ins := by
  unfold beats
  split
  · exact latency_eq_of_frame h _
  · rfl

end Units

namespace Pipeline

variable {p q : Pipeline} {s : Slot} {ins : Instruction} {latency : Nat} {time time' : Int}

theorem Access.timed {addr : Int} {isLoad : Bool} {left : Nat} (h : Access p s addr isLoad q left)
    (hTimed : p.memory.Timed latency time) (hLater : time ≤ time')
    (hTicks : p.cycle + latency ≤ time') : q.memory.Timed latency time' := by
  cases h with
  | goesOn => exact hTimed.mono hLater
  | begins _ hBegin =>
      have hMemory := begunAccess_memory p addr isLoad
      rw [hBegin] at hMemory
      rw [show q.memory = _ from hMemory]
      exact hTimed.begin addr isLoad hLater hTicks

/-- An access that begins takes one tick or the latency of the banks. -/
theorem Access.left_of_fresh {addr : Int} {isLoad : Bool} {left : Nat}
    (h : Access p s addr isLoad q left) (hTimed : p.memory.Timed latency time)
    (hFresh : s.started = false) : left = 1 ∨ left = latency := by
  cases h with
  | goesOn hStarted =>
      rw [hFresh] at hStarted
      cases hStarted
  | begins _ hBegin => exact hTimed.begin_ticks (begin_of_begunAccess hBegin)

/-- A slot is refused its bank only while a port is taken. -/
theorem refused_timed {addr : Int} {isLoad : Bool} (hTimed : p.memory.Timed latency time)
    (hEven : p.memory.Even) (hBegin : p.begunAccess addr isLoad = (none, q)) :
    (p.cycle : Int) < time :=
  hTimed.begin_refused hEven (begin_of_begunAccess hBegin)

theorem MemoryMove.timed {step : StageStep} (h : MemoryMove p s ins step)
    (hTimed : p.memory.Timed latency time) (hLater : time ≤ time')
    (hTicks : p.cycle + latency ≤ time') : step.pipeline.memory.Timed latency time' := by
  cases h with
  | passes => exact hTimed.mono hLater
  | @refused addr q _ _ _ hBegin =>
      have hMemory := begunAccess_memory p addr (ins.kind == .load)
      rw [hBegin] at hMemory
      change q.memory.Timed latency time'
      rw [show q.memory = _ from hMemory]
      exact hTimed.begin addr _ hLater hTicks
  | waits _ _ hAccess => exact hAccess.timed hTimed hLater hTicks
  | loads _ _ hAccess => exact (hAccess.timed hTimed hLater hTicks).completeLoad _
  | stores _ _ _ hAccess => exact (hAccess.timed hTimed hLater hTicks).poke _ _

theorem ExecuteMove.timed {mem : Option Slot} {f : Hazard.Forwarding} {step : StageStep}
    (h : ExecuteMove p s ins mem f step) (hTimed : p.memory.Timed latency time)
    (hLater : time ≤ time')
    (hTicks : s.started = false → step.slot.started = true →
      p.cycle + max (p.units.beats ins : Int) latency ≤ time') :
    step.pipeline.memory.Timed latency time' := by
  cases h with
  | advances => exact hTimed.mono hLater
  | unready => exact hTimed.mono hLater
  | ordered => exact hTimed.mono hLater
  | blocked _ _ _ hBlocked =>
      exact hTimed.reserveBurst _ hLater fun hGranted => absurd hGranted hBlocked
  | starts hFresh _ hBurst _ =>
      cases hBurst with
      | idle => exact hTimed.mono hLater
      | taken hKind =>
          have hStarts := hTicks hFresh rfl
          rw [Units.beats_of_kind hKind] at hStarts
          exact hTimed.reserveBurst _ hLater fun _ => hStarts

end Pipeline

/-! The units of a pipeline keep the dimensions of those of its machine. -/

theorem Machine.past_frame {a : Machine} (h : a.Sound) (slot : Option Slot) :
    (a.past slot).units.frame = a.units.frame := by
  cases slot with
  | none => rfl
  | some s => exact Machine.next_frame h

namespace Back

variable {a : Machine} {p q : Pipeline} {wb mem ex wb' mem' : Option Slot}

theorem frame (h : Back a p wb mem ex) : p.units.frame = a.units.frame := by
  have hSound := h.rear.sound.past wb
  rw [← Machine.pending_frame (a.past wb) mem p.units, h.units,
    Machine.unitsAhead_frame (hSound.past mem) ex, Machine.past_frame hSound,
    Machine.past_frame h.rear.sound]

theorem shifted_frame (h : Back a p wb mem ex) (hShift : Shifted a p q wb mem wb' mem') :
    q.units.frame = a.units.frame := by
  rw [← h.frame, ← Machine.pending_frame ((a.past wb).past wb') mem' q.units, hShift.units,
    Machine.pending_frame]

end Back

end AccelPipe

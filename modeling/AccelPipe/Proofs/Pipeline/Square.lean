import AccelPipe.Proofs.Pipeline.Touched
import AccelPipe.Proofs.Reference.Sequential

/-! The square of words that the convolution unit keeps, while the pipeline ticks: every store that
reaches memory is shown to the unit in the same tick, so that the words stay those of memory. This
holds of every tick, whatever its slots hold and however it ends. -/
namespace AccelPipe

/-- An operation on words as memory has them keeps the square as memory has it. -/
theorem Units.keeps_execute {u : Units} {memory : Int → Int} (hSize : 0 < u.conv2d.size)
    (h : u.conv2d.Keeps memory) (acc : Accelerator) (ins : Instruction) (ops : Operands) :
    (u.execute acc ins ops ((u.reads acc ins ops).map memory)).2.conv2d.Keeps memory := by
  cases acc with
  | mac => exact h
  | relu => exact h
  | fir => exact h
  | pool => exact h
  | conv2d =>
      change (u.conv2d.execute u.precision ins ops ((u.conv2d.reads ins ops).map memory)).2.Keeps _
      cases hLoads : Conv2d.loads ins with
      | true =>
          unfold Conv2d.execute
          rw [hLoads]
          exact h
      | false =>
          obtain ⟨hits, hExecute⟩ := Conv2d.execute_square hSize h u.precision hLoads ops
          rw [hExecute]
          intro o hOrigin
          obtain rfl := Option.some.inj hOrigin
          rfl

/-- Units of the same dimensions have squares of the same size in the same memory. -/
theorem Units.conv2d_of_frame {u v : Units} (h : v.frame = u.frame) :
    v.conv2d.size = u.conv2d.size ∧ v.conv2d.memWords = u.conv2d.memWords :=
  ⟨congrArg (fun w => w.conv2d.size) h, congrArg (fun w => w.conv2d.memWords) h⟩

namespace Pipeline

/-- The square that the convolution unit keeps is current: its words are those that memory has. -/
structure Current (size : Nat) (p : Pipeline) : Prop where
  positive : 0 < size
  size : p.units.conv2d.size = size
  words : p.units.conv2d.memWords = p.memory.size
  even : p.memory.Even
  keeps : p.units.conv2d.Keeps p.memory.peek

namespace Current

variable {size : Nat} {p q : Pipeline}

/-- Banks and ports are no matter to it. -/
theorem of_sameWords (h : p.Current size) (hUnits : q.units = p.units)
    (hWords : p.memory.SameWords q.memory) : q.Current size where
  positive := h.positive
  size := hUnits ▸ h.size
  words := by
    rw [hUnits, hWords.size]
    exact h.words
  even := hWords.even h.even
  keeps := by
    rw [hUnits, hWords.peek]
    exact h.keeps

theorem of_eq (h : p.Current size) (hUnits : q.units = p.units) (hMemory : q.memory = p.memory) :
    q.Current size :=
  h.of_sameWords hUnits (hMemory ▸ Memory.SameWords.refl _)

/-- A store is shown to the unit when it reaches memory. -/
theorem store (h : p.Current size) (addr value : Int) :
    Current size { p with
      memory := p.memory.poke addr value, units := p.units.snoop (p.memory.wrap addr) } where
  positive := h.positive
  size := (Units.conv2d_of_frame (p.units.frame_snoop _)).1.trans h.size
  words := (Units.conv2d_of_frame (p.units.frame_snoop _)).2.trans h.words
  even := Memory.poke_even h.even addr value
  keeps := by
    refine h.keeps.snoop fun place hElsewhere => ?_
    rw [Memory.peek_poke h.even, if_neg]
    intro hSame
    refine hElsewhere ?_
    rw [h.words, ← hSame]
    exact (Int.toNat_of_nonneg
      (Int.emod_nonneg _ (Int.natCast_ne_zero.mpr (Nat.ne_of_gt h.even.size)))).symm

/-- A unit executes with the words that memory has. -/
theorem execute (h : p.Current size) (acc : Accelerator) (ins : Instruction) (ops : Operands) :
    Current size { p with
      units := (p.units.execute acc ins ops
        (p.memory.readBlock (p.units.reads acc ins ops))).2 } where
  positive := h.positive
  size := (Units.conv2d_of_frame (p.units.frame_execute acc ins ops _)).1.trans h.size
  words := (Units.conv2d_of_frame (p.units.frame_execute acc ins ops _)).2.trans h.words
  even := h.even
  keeps := Units.keeps_execute (h.size.symm ▸ h.positive) h.keeps acc ins ops

theorem touched (h : p.Current size) (hTouched : Touched p q) : q.Current size := by
  induction hTouched with
  | refl => exact h
  | noted _ hNoted ih => exact ih.of_sameWords hNoted.units hNoted.words
  | stored _ addr value ih => exact ih.store addr value
  | executed _ acc ins ops ih => exact ih.execute acc ins ops

/-- However a tick ends, the square is current after it. -/
theorem tick (h : p.Current size) : p.tick.2.Current size := by
  rcases p.tick_cases with ⟨f, hFailed⟩ | ⟨q, hTouched, hConcluded⟩
  · rw [hFailed]
    exact h
  · have hRunning : Current size { p with status := .running } := h.of_eq rfl rfl
    exact (hRunning.touched hTouched).of_sameWords hConcluded.units hConcluded.words

end Current

end Pipeline

end AccelPipe

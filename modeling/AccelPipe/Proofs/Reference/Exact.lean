import AccelPipe.Proofs.Reference.Ends

/-! How far the windows of a run can get. Every window starts at a 32-bit address or one stride
behind the window before, so that only a run of very many strides, or of very long ones, can leave
the numbers of 64 bits. -/
namespace AccelPipe

namespace Reference

/-- The next window starts within so many strides of the 32-bit addresses. -/
structure Near (r : Reference) (n : Nat) : Prop where
  size : r.poolSize ≤ 8
  pitch : IsWord r.poolPitch
  low : -0x80000000 ≤ r.poolNext
  high : r.poolNext < 0x80000000 + n * r.poolStride

variable {r : Reference}

theorem pool_place (r : Reference) (ins : Instruction) (a b : Int) :
    (r.pool ins a b).2.poolNext = (r.poolPlace ins a b).1 + r.poolStride ∧
      (r.pool ins a b).2.poolPitch = (r.poolPlace ins a b).2 := by
  unfold pool poolPlace
  dsimp only
  split <;> split <;> exact ⟨rfl, rfl⟩

/-- An instruction leaves the next window where it is, or takes it one stride on. -/
theorem effect_place (r : Reference) (ins : Instruction) (pc : Int) :
    let place := r.poolPlace ins (r.registers.read ins.rs1) (r.registers.read ins.rs2)
    (r.effect ins pc).2.poolNext = r.poolNext ∧ (r.effect ins pc).2.poolPitch = r.poolPitch ∨
      (r.effect ins pc).2.poolNext = place.1 + r.poolStride ∧
        (r.effect ins pc).2.poolPitch = place.2 := by
  unfold effect
  dsimp only
  cases ins.kind with
  | conv2d =>
      dsimp only [Prod.map_snd, id]
      rw [convolve_rest]
      exact .inl ⟨rfl, rfl⟩
  | fir =>
      dsimp only [Prod.map_snd, id]
      rw [filter_rest]
      exact .inl ⟨rfl, rfl⟩
  | pool => exact .inr (r.pool_place ins _ _)
  | _ => exact .inl ⟨rfl, rfl⟩

namespace Near

variable {n : Nat}

/-- The place of a window is no further away than the next window. -/
theorem place (h : r.Near n) (ins : Instruction) {a b : Int} (hA : IsWord a) (hB : IsWord b) :
    IsWord (r.poolPlace ins a b).2 ∧ -0x80000000 ≤ (r.poolPlace ins a b).1 ∧
      (r.poolPlace ins a b).1 < 0x80000000 + n * r.poolStride := by
  unfold poolPlace
  split
  · exact ⟨h.pitch, h.low, h.high⟩
  · have hRange := isWord_iff.mp hA
    have hMore : (0 : Int) ≤ n * r.poolStride :=
      Int.mul_nonneg (Int.natCast_nonneg n) (Int.natCast_nonneg r.poolStride)
    exact ⟨hB, hRange.1, by omega⟩

/-- An instruction takes the next window one stride on at most. -/
theorem effect (h : r.Near n) (ins : Instruction) (pc : Int) :
    (r.effect ins pc).2.Near (n + 1) := by
  have hScaled : ((n + 1 : Nat) : Int) * r.poolStride = n * r.poolStride + r.poolStride := by
    rw [Int.natCast_succ, Int.add_mul, Int.one_mul]
  have hLow := h.low
  have hHigh := h.high
  have hThere : IsWord (r.effect ins pc).2.poolPitch ∧
      -0x80000000 ≤ (r.effect ins pc).2.poolNext ∧
        (r.effect ins pc).2.poolNext < 0x80000000 + (n + 1 : Nat) * r.poolStride := by
    rw [hScaled]
    rcases r.effect_place ins pc with ⟨hNext, hPitch⟩ | ⟨hNext, hPitch⟩ <;> rw [hNext, hPitch]
    · exact ⟨h.pitch, hLow, by omega⟩
    · obtain ⟨hWord, hFrom, hTo⟩ :=
        h.place ins (r.registers.isWord_read ins.rs1) (r.registers.isWord_read ins.rs2)
      exact ⟨hWord, by omega, by omega⟩
  rw [effect_rest]
  exact ⟨h.size, hThere.1, hThere.2.1, hThere.2.2⟩

theorem execute (h : r.Near n) (ins : Instruction) (pc : Int) :
    (r.execute ins pc).2.Near (n + 1) := by
  have hEffect := h.effect ins pc
  unfold Reference.execute
  rcases hDone : r.effect ins pc with ⟨result, r'⟩
  rw [hDone] at hEffect
  cases result with
  | error f => exact hEffect
  | ok e =>
      dsimp only
      rw [apply_rest]
      exact { hEffect with }

theorem next (h : r.Near n) : r.next.Near (n + 1) := by
  have hDone := h.execute r.instruction r.expectedPc
  rw [next_rest]
  exact { hDone with }

theorem after (h : r.Near 0) (n : Nat) :
    (Reference.after n r).Near n ∧ (Reference.after n r).poolStride = r.poolStride := by
  induction n with
  | zero => exact ⟨h, rfl⟩
  | succ n ih =>
      rw [after_succ]
      exact ⟨ih.1.next, (next_stride _).trans ih.2⟩

/-- A window that is not very far away is exact. -/
theorem exactWindow (h : r.Near n) (hFar : n * r.poolStride < 0x3fffffff00000000)
    (ins : Instruction) : r.ExactWindow ins := by
  intro _ _
  have hLow := h.low
  have hHigh := h.high
  refine ⟨?_, r.exactSquare_of_range h.size (by omega) (by omega) h.pitch⟩
  unfold fits64
  simp only [Bool.and_eq_true, decide_eq_true_eq]
  omega

end Near

end Reference

/-- A run starts with the window next to come at the start of the memory. -/
theorem Config.Valid.near {c : Config} (h : c.Valid) (program : Image)
    (data : List (Int × List Int)) :
    (c.reference program data).Near 0 ∧
      (c.reference program data).poolStride = c.poolStride := by
  have hRest := (Reference.fresh c program).loadAll_rest data #[]
  have hSize : (c.reference program data).poolSize = c.poolWindow :=
    congrArg Reference.poolSize hRest
  have hPitch : (c.reference program data).poolPitch = c.poolWindow :=
    congrArg Reference.poolPitch hRest
  have hNext : (c.reference program data).poolNext = 0 := congrArg Reference.poolNext hRest
  have hWindow := h.poolWindow
  refine ⟨⟨?_, ?_, ?_, ?_⟩, congrArg Reference.poolStride hRest⟩
  · omega
  · rw [hPitch, isWord_iff]
    omega
  · omega
  · omega

/-- So many instructions can only leave the numbers of 64 bits with very long strides. -/
theorem Config.Valid.exact {c : Config} (h : c.Valid) (program : Image)
    (data : List (Int × List Int)) {n : Nat} (hFar : n * c.poolStride < 0x3fffffff00000000) :
    (c.reference program data).Exact n := by
  obtain ⟨hNear, hStride⟩ := h.near program data
  intro i hLess _
  obtain ⟨hAfter, hSame⟩ := hNear.after i
  refine hAfter.exactWindow ?_ _
  rw [hSame, hStride]
  exact Nat.lt_of_le_of_lt (Nat.mul_le_mul_right _ (Nat.le_of_lt hLess)) hFar

end AccelPipe

import AccelPipe.Proofs.Machine.Basic

/-! Where each operand of an instruction comes from, operand by operand: in Decode from the
instruction that is being written back or from the register file, in Execute from the nearest
producer in front of it. -/
namespace AccelPipe

namespace Slot

variable {s : Slot} {ins : Instruction}

theorem decoded_iff : s.decoded = .ok ins ↔ s.ins = some ins := by
  unfold decoded
  cases s.ins with
  | none => exact ⟨nofun, nofun⟩
  | some found => simp

theorem isKind_of_ins (h : s.ins = some ins) (k : Kind) : s.isKind k = (ins.kind == k) := by
  unfold isKind
  rw [h]

end Slot

namespace Hazard

/-! What Decode asks of the slots before it. -/

section Asked

variable {s : Slot} {ins loaded : Instruction} {ex mem : Option Slot}

theorem loadsOneOf_of_ins (h : s.ins = some loaded) (registers : List Nat) :
    loadsOneOf registers (some s) =
      .ok (loaded.kind == .load && registers.contains loaded.produces) := by
  unfold loadsOneOf
  dsimp only
  rw [Slot.decoded_iff.mpr h]
  rfl

theorem holds_of_ins (h : s.ins = some ins) (k : Kind) :
    holds k (some s) = .ok (ins.kind == k) := by
  unfold holds
  dsimp only
  rw [Slot.decoded_iff.mpr h]
  rfl

/-- An instruction waits in Decode for a load, or else for its unit, or for neither. -/
theorem decodeStall_cases {blocking : List Kind} {memoryFree : Bool} {reason : Option StallCause}
    (h : decodeStall blocking ins ex mem memoryFree = .ok reason) :
    reason = some .loadUse ∨
      waitsForLoad ins ex mem memoryFree = .ok false ∧
        (reason = some .unitBusy ∨
          reason = none ∧ waitsForUnit blocking ins ex mem = .ok false) := by
  unfold decodeStall at h
  obtain ⟨load, hLoad, h⟩ := bind_ok h
  cases load with
  | true => exact .inl (Except.ok.inj h).symm
  | false =>
      obtain ⟨unit, hUnit, h⟩ := bind_ok h
      cases unit with
      | true => exact .inr ⟨hLoad, .inl (Except.ok.inj h).symm⟩
      | false => exact .inr ⟨hLoad, .inr ⟨(Except.ok.inj h).symm, hUnit⟩⟩

end Asked

/-- The value that Execute forwards to an operand, if there is a producer that has it. -/
def forwarded? (mem wb : Option Slot) (reg : Nat) : Option Int :=
  (producer? mem wb reg).bind fun found => found.1.result

theorem get?_readOperands (ins : Instruction) (registers : Registers) (wb : Option Slot)
    (o : Operand) :
    (readOperands ins registers wb).operands.get? o =
      (ins.sources.lookup o).map fun reg => (writtenBack? wb reg).getD (registers.read reg) := by
  unfold readOperands
  refine (get?_foldl (fun (r : Reading) o => r.operands.get? o) _
    (fun reg _ => some ((writtenBack? wb reg).getD (registers.read reg))) ?_ _ ins.sources_nodup
    _ _).trans ?_
  rotate_left
  · cases ins.sources.lookup o with
    | none => cases o <;> rfl
    | some reg => rfl
  · intro r o reg o'
    dsimp only
    cases writtenBack? wb reg with
    | none => exact r.operands.get?_set o o' _
    | some v => exact r.operands.get?_set o o' v

theorem get?_forward (ins : Instruction) (latched : Reading) (mem wb : Option Slot) (o : Operand) :
    (forward ins latched mem wb).operands.get? o =
      match ins.sources.lookup o with
      | some reg => (forwarded? mem wb reg).or (latched.operands.get? o)
      | none => latched.operands.get? o := by
  unfold forward
  refine get?_foldl (fun (f : Forwarding) o => f.operands.get? o) _
    (fun reg old => (forwarded? mem wb reg).or old) ?_ _ ins.sources_nodup _ _
  intro f o reg o'
  have hKept : f.operands.get? o' = if o' = o then f.operands.get? o else f.operands.get? o' := by
    split
    · rename_i hHere
      rw [hHere]
    · rfl
  unfold forwarded?
  dsimp only
  cases producer? mem wb reg with
  | none => exact hKept
  | some found =>
      obtain ⟨s, path⟩ := found
      dsimp only [Option.bind_some]
      cases s.result with
      | none => exact hKept
      | some v => exact f.operands.get?_set o o' v

theorem get?_forward_of_lookup {ins : Instruction} {o : Operand} {reg : Nat}
    (hLookup : ins.sources.lookup o = some reg) (latched : Reading) (mem wb : Option Slot) :
    (forward ins latched mem wb).operands.get? o =
      (forwarded? mem wb reg).or (latched.operands.get? o) := by
  rw [get?_forward, hLookup]

theorem forwarded?_of_producer {mem wb : Option Slot} {reg : Nat} {s : Slot} {path : ForwardPath}
    (h : producer? mem wb reg = some (s, path)) : forwarded? mem wb reg = s.result := by
  unfold forwarded?
  rw [h]
  rfl

theorem forwarded?_of_none {mem wb : Option Slot} {reg : Nat}
    (h : producer? mem wb reg = none) : forwarded? mem wb reg = none := by
  unfold forwarded?
  rw [h]
  rfl

/-- Operands are ready if each of them is. -/
theorem ready_foldl {step : Forwarding → Operand × Nat → Forwarding} {P : Operand × Nat → Prop}
    (hStep : ∀ f entry, (step f entry).ready = true ↔ f.ready = true ∧ P entry)
    (entries : List (Operand × Nat)) (f : Forwarding) :
    (entries.foldl step f).ready = true ↔ f.ready = true ∧ ∀ entry ∈ entries, P entry := by
  induction entries generalizing f with
  | nil => simp
  | cons entry rest ih => rw [List.foldl_cons, ih, List.forall_mem_cons, hStep, and_assoc]

/-- Execute is ready exactly if every producer has its value. -/
theorem forward_ready_iff (ins : Instruction) (latched : Reading) (mem wb : Option Slot) :
    (forward ins latched mem wb).ready = true ↔
      ∀ entry ∈ ins.sources, (producer? mem wb entry.2).isSome →
        (forwarded? mem wb entry.2).isSome := by
  unfold forward
  refine (ready_foldl ?_ ins.sources { toReading := latched }).trans (and_iff_right rfl)
  intro f entry
  obtain ⟨o, reg⟩ := entry
  unfold forwarded?
  dsimp only
  cases hProducer : producer? mem wb reg with
  | none => simp
  | some found =>
      obtain ⟨s, path⟩ := found
      cases hResult : s.result with
      | none => simp [hResult]
      | some v => simp [hResult]

/-- A producer is in Memory or, if there is none in Memory, in Writeback. -/
theorem producer?_cases (mem wb : Option Slot) (reg : Nat) :
    (∃ s path, mem = some s ∧ reg ≠ 0 ∧ produced s = reg ∧ producer? mem wb reg = some (s, path)) ∨
    (∃ s path, wb = some s ∧ reg ≠ 0 ∧ produced s = reg ∧ (∀ m, mem = some m → produced m ≠ reg) ∧
      producer? mem wb reg = some (s, path)) ∨
    ((reg = 0 ∨ ((∀ m, mem = some m → produced m ≠ reg) ∧ ∀ w, wb = some w → produced w ≠ reg)) ∧
      producer? mem wb reg = none) := by
  unfold producer?
  by_cases hZero : reg = 0
  · exact .inr (.inr ⟨.inl hZero, if_pos hZero⟩)
  · rw [if_neg hZero]
    cases hMem : mem.filter (produced · == reg) with
    | some s =>
        obtain ⟨rfl, hProduced⟩ := Option.filter_eq_some_iff.mp hMem
        exact .inl ⟨s, .exToEx, rfl, hZero, beq_iff_eq.mp hProduced, rfl⟩
    | none =>
        have hNone : ∀ m, mem = some m → produced m ≠ reg := by
          rintro m rfl hEq
          simp [hEq] at hMem
        cases hWb : wb.filter (produced · == reg) with
        | some s =>
            obtain ⟨rfl, hProduced⟩ := Option.filter_eq_some_iff.mp hWb
            exact .inr (.inl ⟨s, .memToEx, rfl, hZero, beq_iff_eq.mp hProduced, hNone, rfl⟩)
        | none =>
            refine .inr (.inr ⟨.inr ⟨hNone, ?_⟩, rfl⟩)
            rintro w rfl hEq
            simp [hEq] at hWb

end Hazard

end AccelPipe

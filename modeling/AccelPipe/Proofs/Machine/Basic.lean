import AccelPipe.Pipeline.Tick
import AccelPipe.Proofs.Accelerator.Frame

/-! The machine that a pipeline stands for: one instruction at a time, on the arithmetic and the
accelerator units of the pipeline itself, with a flat memory and without any timing. -/
namespace AccelPipe

/-- What a slot finds out about its instruction in Execute and Memory. -/
structure Work where
  result : Option Int := none
  memAddr : Option Int := none
  storeValue : Option Int := none
  taken : Bool := false
  target : Option Nat := none
  saturated : Bool := false
deriving DecidableEq

def Slot.work (s : Slot) : Work :=
  ⟨s.result, s.memAddr, s.storeValue, s.taken, s.target, s.saturated⟩

/-- What Execute does for an instruction whose operands are known: its work, and the units after
it. -/
def perform (units : Units) (memory : Int → Int) (ins : Instruction) (ops : Operands) (pc : Int) :
    Except Failure (Work × Units) :=
  match ins.kind with
  | .alu => do
    let value ← (ins.alu ops pc).mapError .refused
    return ({ result := some value }, units)
  | .branch => do
    let (taken, target) ← (ins.branch ops pc).mapError .refused
    let result := if ins.writesRd then some (s32 (pc + 4)) else none
    return ({ taken, target := some target, result }, units)
  | .load => do
    let base ← Pipeline.needed ops .rs1
    return ({ memAddr := some (base + ins.imm) }, units)
  | .store => do
    let base ← Pipeline.needed ops .rs1
    let value ← Pipeline.needed ops .rs2
    return ({ memAddr := some (base + ins.imm), storeValue := some value }, units)
  | k =>
    match Accelerator.ofKind? k with
    | some a => do
      let (result, units) := units.execute a ins ops ((units.reads a ins ops).map memory)
      let result ← result
      return ({ result := some result.value, saturated := result.saturated }, units)
    | none => return ({}, units)

/-- The values of the registers that an instruction reads. -/
def Registers.operands (r : Registers) (ins : Instruction) : Operands :=
  ins.sources.foldl (fun ops (o, reg) => ops.set o (r.read reg)) {}

/-- A commit without the marks of the time at which it happened. -/
def Commit.timeless (c : Commit) : Commit := { c with cycle := 0, seq := 0, paths := [] }

structure Machine where
  program : Image
  registers : Registers := {}
  /-- The word at an address; addresses wrap around at `size`. -/
  memory : Int → Int
  size : Nat
  units : Units
  pc : Int
  /-- How many jumps and branches have been taken. -/
  flushes : Nat := 0
  /-- Whether the last instruction was one that ends a run. -/
  halted : Bool := false

namespace Machine

variable (a : Machine)

def wrap (addr : Int) : Nat := (addr % a.size).toNat

/-- The instruction that comes next. -/
def instruction : Instruction := Instruction.decode (a.program.fetch a.pc)

def operands : Operands := a.registers.operands a.instruction

/-- The work of Execute and the units after it. An instruction that fails does nothing. -/
def performed : Work × Units :=
  match perform a.units a.memory a.instruction a.operands a.pc with
  | .ok done => done
  | .error _ => ({}, a.units)

/-- The work once Memory has done its part, too. -/
def finished : Work :=
  match a.performed.1.memAddr with
  | some addr =>
    if a.instruction.kind = .load then
      { a.performed.1 with result := some (a.memory addr) }
    else a.performed.1
  | none => a.performed.1

def store : Option Store :=
  if a.instruction.kind = .store then
    match a.finished.memAddr, a.finished.storeValue with
    | some addr, some value => some ⟨a.wrap addr, s32 value⟩
    | _, _ => none
  else none

/-- The commit of the next instruction. -/
def commit : Commit where
  cycle := 0
  seq := 0
  pc := a.pc
  ins := a.instruction
  rd := if a.instruction.writesRd then a.instruction.rd else 0
  value := if a.instruction.writesRd then a.finished.result else none
  store := a.store
  taken := a.finished.taken
  target := a.finished.target
  saturated := a.finished.saturated
  paths := []

/-- The machine after the next instruction. -/
@[irreducible]
def next : Machine where
  program := a.program
  registers :=
    match a.commit.value with
    | some v => a.registers.write a.commit.rd v
    | none => a.registers
  memory :=
    match a.store with
    | some s => fun addr => if a.wrap addr = s.addr then s.value else a.memory addr
    | none => a.memory
  size := a.size
  units :=
    match a.store with
    | some s => a.performed.2.snoop s.addr
    | none => a.performed.2
  pc := if a.performed.1.taken then a.performed.1.target.getD 0 else a.pc + 4
  flushes := a.flushes + if a.performed.1.taken then 1 else 0
  halted := (Pipeline.ending a.instruction.kind).isSome

theorem next_program : a.next.program = a.program := by simp only [next]

theorem next_size : a.next.size = a.size := by simp only [next]

theorem next_wrap (addr : Int) : a.next.wrap addr = a.wrap addr := by
  unfold wrap
  rw [next_size]

/-- The machine after so many instructions. -/
def after : Nat → Machine → Machine
  | 0, a => a
  | n + 1, a => after n a.next

/-- A machine with words in its registers and in its memory, and with units that fit it. -/
structure Sound (a : Machine) : Prop where
  size : 0 < a.size
  registers : ∀ i, IsWord (a.registers.read i)
  memory : ∀ addr, IsWord (a.memory addr)
  periodic : ∀ addr addr', a.wrap addr = a.wrap addr' → a.memory addr = a.memory addr'
  fit : a.units.Fit
  memWords : a.units.conv2d.memWords = a.size

end Machine

/-! An operand map that is built in one pass over the operands. -/

/-- Operands are the same if they are the same in every place. -/
theorem OperandMap.ext_get? {α : Type} {m m' : OperandMap α} (h : ∀ o, m.get? o = m'.get? o) :
    m = m' := by
  cases m
  cases m'
  have hFirst := h .rs1
  have hSecond := h .rs2
  have hThird := h .rd
  simp only [get?] at hFirst hSecond hThird
  rw [hFirst, hSecond, hThird]

theorem OperandMap.get?_set {α : Type} (m : OperandMap α) (o o' : Operand) (a : α) :
    (m.set o a).get? o' = if o' = o then some a else m.get? o' := by
  by_cases hHere : o' = o
  · subst hHere
    rw [if_pos rfl, get?_set_self]
  · rw [if_neg hHere, get?_set_of_ne m a hHere]

/-- A pass that visits every operand at most once decides on each of them on its own. -/
theorem get?_foldl {σ : Type} (get : σ → Operand → Option Int) (step : σ → Operand × Nat → σ)
    (choose : Nat → Option Int → Option Int)
    (hStep : ∀ s o reg o',
      get (step s (o, reg)) o' = if o' = o then choose reg (get s o) else get s o')
    (l : List (Operand × Nat)) (hNodup : (l.map (·.1)).Nodup) (s : σ) (o : Operand) :
    get (l.foldl step s) o =
      match l.lookup o with
      | some reg => choose reg (get s o)
      | none => get s o := by
  induction l generalizing s with
  | nil => rfl
  | cons entry rest ih =>
      obtain ⟨o', reg⟩ := entry
      rw [List.map_cons, List.nodup_cons] at hNodup
      rw [List.foldl_cons, ih hNodup.2, List.lookup_cons, hStep]
      by_cases hHere : o = o'
      · subst hHere
        have hAbsent : rest.lookup o = none := by
          rw [List.lookup_eq_none_iff]
          intro p hMem
          have hNe : o ≠ p.1 := fun hEq => hNodup.1 (List.mem_map.mpr ⟨p, hMem, hEq.symm⟩)
          simpa using hNe
        simp only [hAbsent, if_true, beq_self_eq_true]
      · simp only [if_neg hHere, beq_eq_false_iff_ne.mpr hHere]

/-- The operands of an instruction are the registers that it names. -/
theorem Registers.get?_operands (r : Registers) (ins : Instruction) (o : Operand) :
    (r.operands ins).get? o = (ins.sources.lookup o).map r.read := by
  unfold operands
  rw [get?_foldl OperandMap.get? _ (fun reg _ => some (r.read reg)) ?_ _ ins.sources_nodup]
  · cases ins.sources.lookup o with
    | none => cases o <;> rfl
    | some reg => rfl
  · exact fun ops o reg o' => ops.get?_set o o' _

/-- An operand that an instruction names is there. -/
theorem lookup_of_mem {l : List (Operand × Nat)} (hNodup : (l.map (·.1)).Nodup) {o : Operand}
    {reg : Nat} (h : (o, reg) ∈ l) : l.lookup o = some reg := by
  induction l with
  | nil => cases h
  | cons entry rest ih =>
      obtain ⟨o', reg'⟩ := entry
      rw [List.map_cons, List.nodup_cons] at hNodup
      rw [List.lookup_cons]
      rcases List.mem_cons.mp h with hHead | hTail
      · cases hHead
        simp
      · have hNe : o ≠ o' := by
          intro hEq
          subst hEq
          exact hNodup.1 (List.mem_map.mpr ⟨_, hTail, rfl⟩)
        simp only [beq_eq_false_iff_ne.mpr hNe]
        exact ih hNodup.2 hTail

theorem mem_of_lookup {l : List (Operand × Nat)} {o : Operand} {reg : Nat}
    (h : l.lookup o = some reg) : (o, reg) ∈ l := by
  obtain ⟨before, behind, rfl, -⟩ := List.lookup_eq_some_iff.mp h
  exact List.mem_append_right _ List.mem_cons_self

end AccelPipe

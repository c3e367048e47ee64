import AccelPipe.Proofs.Machine.Basic

/-! Every instruction of the sequential machine can be executed, and leaves the machine sound. -/
namespace AccelPipe

/-- What Execute always finds out about an instruction, depending on its kind. -/
structure Work.Fits (w : Work) (ins : Instruction) : Prop where
  result : ∀ v, w.result = some v → IsWord v
  written : ins.writesRd = true → ins.kind ≠ .load → ∃ v, w.result = some v
  pending : ins.kind = .load → w.result = none
  address : ins.kind = .load ∨ ins.kind = .store → ∃ addr, w.memAddr = some addr
  elsewhere : ins.kind ≠ .load → ins.kind ≠ .store → w.memAddr = none
  value : ins.kind = .store → ∃ v, w.storeValue = some v
  target : w.taken = true → ins.kind = .branch ∧ ∃ t, w.target = some t

/-- Only some kinds of instruction have a register result. -/
theorem Instruction.kind_of_writesRd {ins : Instruction} (h : ins.writesRd = true) :
    ins.kind ≠ .store ∧ ins.kind ≠ .system ∧ ins.kind ≠ .illegal := by
  unfold kind
  unfold writesRd at h
  cases hMnemonic : ins.mnemonic <;> simp only [hMnemonic] at h ⊢ <;>
    first
      | cases h; done
      | exact ⟨nofun, nofun, nofun⟩

/-- A load always has a register to write, be it the zero register. -/
theorem Instruction.writesRd_of_load {ins : Instruction} (h : ins.kind = .load) :
    ins.writesRd = true := by
  unfold kind at h
  unfold writesRd
  cases hMnemonic : ins.mnemonic <;> rw [hMnemonic] at h <;> first | rfl | cases h

/-- Operands with a value for everything that an instruction reads. -/
def OperandMap.Complete (ops : Operands) (ins : Instruction) : Prop :=
  ∀ o reg, (o, reg) ∈ ins.sources → ∃ v, ops.get? o = some v

/-- The operands of an instruction are all there. -/
theorem Registers.complete_operands (r : Registers) (ins : Instruction) :
    (r.operands ins).Complete ins := by
  intro o reg hMem
  rw [r.get?_operands ins, lookup_of_mem ins.sources_nodup hMem]
  exact ⟨_, rfl⟩

/-- Looking for an operand that the instruction has does not fail. -/
theorem OperandMap.Complete.needed {ops : Operands} {ins : Instruction} (h : ops.Complete ins)
    {o : Operand} {reg : Nat} (hMem : (o, reg) ∈ ins.sources) :
    ∃ v, Pipeline.needed ops o = .ok v := by
  obtain ⟨v, hValue⟩ := h o reg hMem
  refine ⟨v, ?_⟩
  unfold Pipeline.needed
  rw [hValue]

/-! What an instruction of each kind does in Execute. -/

section Kinds

variable {units : Units} {memory : Int → Int} {ins : Instruction} {ops : Operands} {pc : Int}

/-- Arithmetic has a result and nothing else. -/
theorem perform_alu {v : Int} (hKind : ins.kind = .alu) (hAlu : ins.alu ops pc = .ok v) :
    perform units memory ins ops pc = .ok ({ result := some v }, units) := by
  unfold perform
  simp only [hKind, hAlu]
  rfl

/-- A branch has a target, and the address behind it as a result if it links. -/
theorem perform_branch {taken : Bool} {target : Nat} (hKind : ins.kind = .branch)
    (hBranch : ins.branch ops pc = .ok (taken, target)) :
    perform units memory ins ops pc =
      .ok (⟨if ins.writesRd then some (s32 (pc + 4)) else none, none, none, taken, some target,
        false⟩, units) := by
  unfold perform
  simp only [hKind, hBranch]
  rfl

/-- A load has an address; its result is found later. -/
theorem perform_load {base : Int} (hKind : ins.kind = .load)
    (hBase : Pipeline.needed ops .rs1 = .ok base) :
    perform units memory ins ops pc = .ok ({ memAddr := some (base + ins.imm) }, units) := by
  unfold perform
  simp only [hKind, hBase]
  rfl

/-- A store has an address and a value. -/
theorem perform_store {base value : Int} (hKind : ins.kind = .store)
    (hBase : Pipeline.needed ops .rs1 = .ok base) (hValue : Pipeline.needed ops .rs2 = .ok value) :
    perform units memory ins ops pc =
      .ok ({ memAddr := some (base + ins.imm), storeValue := some value }, units) := by
  unfold perform
  simp only [hKind, hBase, hValue]
  rfl

/-- An instruction that ends the run has no effect. -/
theorem perform_idle (hKind : ins.kind = .system ∨ ins.kind = .illegal) :
    perform units memory ins ops pc = .ok ({}, units) := by
  unfold perform
  rcases hKind with hKind | hKind <;> simp only [hKind] <;> rfl

end Kinds

/-- An operation of a unit, step by step. -/
theorem perform_unit {ins : Instruction} {acc : Accelerator} (hKind : ins.kind = acc.kind)
    (units : Units) (memory : Int → Int) (ops : Operands) (pc : Int) :
    perform units memory ins ops pc =
      (units.execute acc ins ops ((units.reads acc ins ops).map memory)).1 >>= fun r =>
        .ok ({ result := some r.value, saturated := r.saturated },
          (units.execute acc ins ops ((units.reads acc ins ops).map memory)).2) := by
  unfold perform
  cases acc <;> simp only [hKind, Accelerator.kind] <;> rfl

/-- An accelerator instruction whose words are there is carried out. -/
theorem perform_accelerator {units : Units} {word : Int} {acc : Accelerator} (hFit : units.Fit)
    (hKind : (Instruction.decode word).kind = acc.kind) (memory : Int → Int) (ops : Operands)
    (pc : Int) :
    ∃ r, (units.execute acc (Instruction.decode word) ops
        ((units.reads acc (Instruction.decode word) ops).map memory)).1 = .ok r ∧
      perform units memory (Instruction.decode word) ops pc =
        .ok ({ result := some r.value, saturated := r.saturated },
          (units.execute acc (Instruction.decode word) ops
            ((units.reads acc (Instruction.decode word) ops).map memory)).2) ∧
      IsWord r.value := by
  obtain ⟨r, hExecute, hWord⟩ := Units.execute_ok hFit hKind ops
    ((units.reads acc (Instruction.decode word) ops).map memory) (List.length_map _)
  refine ⟨r, hExecute, ?_, hWord⟩
  rw [perform_unit hKind, hExecute, ok_bind]

/-- An instruction with nothing to do in Execute. -/
theorem Work.fits_idle {ins : Instruction} (h : ins.kind = .system ∨ ins.kind = .illegal) :
    ({} : Work).Fits ins := by
  have hWrites : ins.writesRd ≠ true := by
    intro hWrites
    have hNot := Instruction.kind_of_writesRd hWrites
    rcases h with hKind | hKind
    · exact hNot.2.1 hKind
    · exact hNot.2.2 hKind
  refine ⟨nofun, fun hW => absurd hW hWrites, fun _ => rfl, ?_, fun _ _ => rfl, ?_, nofun⟩
  · rintro (hIs | hIs) <;> rw [hIs] at h <;> rcases h with h | h <;> cases h
  · intro hIs
    rw [hIs] at h
    rcases h with h | h <;> cases h

/-- An instruction that leaves memory alone and has a result. -/
theorem Work.fits_result {ins : Instruction} (hLoad : ins.kind ≠ .load) (hStore : ins.kind ≠ .store)
    {v : Int} (hWord : IsWord v) (saturated : Bool) :
    ({ result := some v, saturated } : Work).Fits ins := by
  refine ⟨?_, fun _ _ => ⟨v, rfl⟩, fun hIs => absurd hIs hLoad, ?_, fun _ _ => rfl,
    fun hIs => absurd hIs hStore, nofun⟩
  · rintro v' hValue
    cases hValue
    exact hWord
  · rintro (hIs | hIs)
    · exact absurd hIs hLoad
    · exact absurd hIs hStore

/-- A branch may have a link as its result. -/
theorem Work.fits_branch {ins : Instruction} (hKind : ins.kind = .branch) (pc : Int) (taken : Bool)
    (target : Nat) :
    (⟨if ins.writesRd then some (s32 (pc + 4)) else none, none, none, taken, some target,
      false⟩ : Work).Fits ins := by
  refine ⟨?_, ?_, ?_, ?_, fun _ _ => rfl, ?_, fun _ => ⟨hKind, target, rfl⟩⟩
  · intro v hValue
    obtain ⟨-, hLink⟩ := Option.ite_none_right_eq_some.mp hValue
    cases hLink
    exact isWord_s32 _
  · intro hWrites _
    exact ⟨_, if_pos hWrites⟩
  all_goals simp [hKind]

theorem Work.fits_load {ins : Instruction} (hKind : ins.kind = .load) (addr : Int) :
    ({ memAddr := some addr } : Work).Fits ins := by
  refine ⟨nofun, fun _ hNot => absurd hKind hNot, fun _ => rfl, fun _ => ⟨_, rfl⟩,
    fun hNot => absurd hKind hNot, ?_, nofun⟩
  simp [hKind]

theorem Work.fits_store {ins : Instruction} (hKind : ins.kind = .store) (addr value : Int) :
    ({ memAddr := some addr, storeValue := some value } : Work).Fits ins := by
  refine ⟨nofun, ?_, fun _ => rfl, fun _ => ⟨_, rfl⟩, fun _ hNot => absurd hKind hNot,
    fun _ => ⟨_, rfl⟩, nofun⟩
  intro hWrites
  exact absurd hKind (Instruction.kind_of_writesRd hWrites).1

/-- Every decoded instruction with complete operands is carried out. -/
theorem perform_ok {units : Units} {word : Int} {ops : Operands} (hFit : units.Fit)
    (hOps : ops.Complete (Instruction.decode word)) (memory : Int → Int) (pc : Int) :
    ∃ w units', perform units memory (Instruction.decode word) ops pc = .ok (w, units') ∧
      w.Fits (Instruction.decode word) ∧ units'.frame = units.frame := by
  have hAccelerator : ∀ acc : Accelerator, (Instruction.decode word).kind = acc.kind →
      ∃ w units', perform units memory (Instruction.decode word) ops pc = .ok (w, units') ∧
        w.Fits (Instruction.decode word) ∧ units'.frame = units.frame := by
    intro acc hKind
    obtain ⟨r, -, hPerform, hWord⟩ := perform_accelerator hFit hKind memory ops pc
    have hOther : acc.kind ≠ .load ∧ acc.kind ≠ .store := by cases acc <;> exact ⟨nofun, nofun⟩
    rw [← hKind] at hOther
    exact ⟨_, _, hPerform, Work.fits_result hOther.1 hOther.2 hWord r.saturated,
      Units.frame_execute _ _ _ _ _⟩
  generalize Instruction.decode word = ins at *
  cases hKind : ins.kind with
  | alu =>
      obtain ⟨v, hAlu, hWord⟩ := Instruction.alu_ok hKind ops pc
      exact ⟨_, _, perform_alu hKind hAlu,
        Work.fits_result (by rw [hKind]; nofun) (by rw [hKind]; nofun) hWord false, rfl⟩
  | branch =>
      obtain ⟨taken, target, hBranch⟩ := Instruction.branch_ok hKind ops pc
      exact ⟨_, _, perform_branch hKind hBranch, Work.fits_branch hKind pc taken target, rfl⟩
  | load =>
      obtain ⟨base, hBase⟩ := hOps.needed (Instruction.rs1_mem_sources (.inl hKind))
      exact ⟨_, _, perform_load hKind hBase, Work.fits_load hKind _, rfl⟩
  | store =>
      obtain ⟨base, hBase⟩ := hOps.needed (Instruction.rs1_mem_sources (.inr hKind))
      obtain ⟨value, hValue⟩ := hOps.needed (Instruction.rs2_mem_sources hKind)
      exact ⟨_, _, perform_store hKind hBase hValue, Work.fits_store hKind _ value, rfl⟩
  | mac => exact hAccelerator .mac hKind
  | relu => exact hAccelerator .relu hKind
  | conv2d => exact hAccelerator .conv2d hKind
  | fir => exact hAccelerator .fir hKind
  | pool => exact hAccelerator .pool hKind
  | system => exact ⟨_, _, perform_idle (.inl hKind), Work.fits_idle (.inl hKind), rfl⟩
  | illegal => exact ⟨_, _, perform_idle (.inr hKind), Work.fits_idle (.inr hKind), rfl⟩

/-- Only the accelerator units look at memory or at each other, and only they clamp a result. -/
theorem perform_plain {ins : Instruction} (hPlain : ∀ acc : Accelerator, ins.kind ≠ acc.kind)
    {units : Units} {memory : Int → Int} {ops : Operands} {pc : Int} {w : Work} {units' : Units}
    (h : perform units memory ins ops pc = .ok (w, units')) (other : Units)
    (memory' : Int → Int) :
    units' = units ∧ w.saturated = false ∧ perform other memory' ins ops pc = .ok (w, other) := by
  unfold perform at h ⊢
  cases hKind : ins.kind <;> simp only [hKind] at h ⊢
  case alu | load | branch =>
    obtain ⟨v, hValue, hDone⟩ := bind_ok h
    cases hDone
    exact ⟨rfl, rfl, by rw [hValue]; rfl⟩
  case store =>
    obtain ⟨v, hValue, hRest⟩ := bind_ok h
    obtain ⟨v', hValue', hDone⟩ := bind_ok hRest
    cases hDone
    exact ⟨rfl, rfl, by rw [hValue, hValue']; rfl⟩
  case system | illegal =>
    cases h
    exact ⟨rfl, rfl, rfl⟩
  case mac => exact absurd hKind (hPlain .mac)
  case relu => exact absurd hKind (hPlain .relu)
  case conv2d => exact absurd hKind (hPlain .conv2d)
  case fir => exact absurd hKind (hPlain .fir)
  case pool => exact absurd hKind (hPlain .pool)

/-- An instruction that reads no memory in Execute cannot tell what is in memory. -/
theorem perform_memory {units : Units} {ins : Instruction} {ops : Operands}
    (hReads : ∀ acc : Accelerator, ins.kind = acc.kind → units.reads acc ins ops = [])
    (memory memory' : Int → Int) (pc : Int) {w : Work} {units' : Units}
    (h : perform units memory ins ops pc = .ok (w, units')) :
    perform units memory' ins ops pc = .ok (w, units') := by
  by_cases hUnit : ∃ acc : Accelerator, ins.kind = acc.kind
  · obtain ⟨acc, hKind⟩ := hUnit
    rw [perform_unit hKind, hReads acc hKind] at h ⊢
    exact h
  · obtain ⟨rfl, -, hPerform⟩ :=
      perform_plain (fun acc hKind => hUnit ⟨acc, hKind⟩) h units memory'
    exact hPerform

/-- Nor can it tell whether a store has reached it. -/
theorem perform_snoop {units : Units} {ins : Instruction} {ops : Operands} (hFit : units.Fit)
    (hReads : ∀ acc : Accelerator, ins.kind = acc.kind → units.reads acc ins ops = [])
    (addr : Int) (memory : Int → Int) (pc : Int) {w : Work} {units' : Units}
    (h : perform units memory ins ops pc = .ok (w, units')) :
    perform (units.snoop addr) memory ins ops pc = .ok (w, units'.snoop addr) := by
  by_cases hUnit : ∃ acc : Accelerator, ins.kind = acc.kind
  · obtain ⟨acc, hKind⟩ := hUnit
    have hNone := hReads acc hKind
    rw [perform_unit hKind, hNone] at h
    rw [perform_unit hKind, Units.reads_snoop hFit hNone addr, List.map_nil,
      Units.execute_snoop hFit hNone addr]
    obtain ⟨r, hResult, hDone⟩ := bind_ok h
    cases hDone
    rw [List.map_nil] at hResult
    rw [hResult]
    rfl
  · obtain ⟨rfl, -, hPerform⟩ :=
      perform_plain (fun acc hKind => hUnit ⟨acc, hKind⟩) h (units.snoop addr) memory
    exact hPerform

namespace Machine

variable {a : Machine}

/-- What is performed is what the operands give. -/
theorem performed_of_perform {done : Work × Units}
    (h : perform a.units a.memory a.instruction a.operands a.pc = .ok done) :
    a.performed = done := by
  unfold performed
  rw [h]

theorem performed_idle (hKind : a.instruction.kind = .system ∨ a.instruction.kind = .illegal) :
    a.performed = ({}, a.units) := performed_of_perform (perform_idle hKind)

/-- With sound operands every instruction can be performed. It yields all that its kind asks for and
leaves the shape of the units alone. -/
theorem performed_spec (h : a.Sound) :
    perform a.units a.memory a.instruction a.operands a.pc = .ok a.performed ∧
      a.performed.1.Fits a.instruction ∧ a.performed.2.frame = a.units.frame := by
  obtain ⟨w, units, hPerform, hFits, hFrame⟩ := perform_ok h.fit
    (a.registers.complete_operands a.instruction) a.memory a.pc
  have hMine : perform a.units a.memory a.instruction a.operands a.pc = .ok (w, units) := hPerform
  rw [performed_of_perform hMine]
  exact ⟨hMine, hFits, hFrame⟩

theorem perform_eq (h : a.Sound) :
    perform a.units a.memory a.instruction a.operands a.pc = .ok a.performed :=
  (performed_spec h).1

theorem performed_fits (h : a.Sound) : a.performed.1.Fits a.instruction := (performed_spec h).2.1

theorem performed_frame (h : a.Sound) : a.performed.2.frame = a.units.frame :=
  (performed_spec h).2.2

/-- Memory only has something to do for a load. -/
theorem finished_of_not_load (hKind : a.instruction.kind ≠ .load) :
    a.finished = a.performed.1 := by
  unfold finished
  split
  · rw [if_neg hKind]
  · rfl

/-- Memory only adds a result. -/
theorem finished_rest (a : Machine) :
    a.finished = { a.performed.1 with result := a.finished.result } := by
  unfold finished
  split
  · split <;> rfl
  · rfl

/-- Behind its access a load has the word at its address. -/
theorem finished_of_load (h : a.Sound) (hKind : a.instruction.kind = .load) :
    ∃ addr, a.performed.1.memAddr = some addr ∧
      a.finished = { a.performed.1 with result := some (a.memory addr) } := by
  obtain ⟨addr, hAddr⟩ := (performed_fits h).address (.inl hKind)
  refine ⟨addr, hAddr, ?_⟩
  unfold finished
  simp only [hAddr]
  rw [if_pos hKind]

/-- Results are 32-bit words. -/
theorem finished_result (h : a.Sound) {v : Int} (hValue : a.finished.result = some v) :
    IsWord v := by
  by_cases hKind : a.instruction.kind = .load
  · obtain ⟨addr, -, hFinished⟩ := finished_of_load h hKind
    rw [hFinished] at hValue
    cases hValue
    exact h.memory addr
  · rw [finished_of_not_load hKind] at hValue
    exact (performed_fits h).result v hValue

/-- An instruction that writes a register has a result when it is finished. -/
theorem finished_written (h : a.Sound) (hWrites : a.instruction.writesRd = true) :
    ∃ v, a.finished.result = some v := by
  by_cases hKind : a.instruction.kind = .load
  · obtain ⟨addr, -, hFinished⟩ := finished_of_load h hKind
    rw [hFinished]
    exact ⟨_, rfl⟩
  · rw [finished_of_not_load hKind]
    exact (performed_fits h).written hWrites hKind

/-- A store writes its value, cut to a word, to its address, reduced to the memory. -/
theorem store_of_store (h : a.Sound) (hKind : a.instruction.kind = .store) :
    ∃ addr value, a.performed.1.memAddr = some addr ∧ a.performed.1.storeValue = some value ∧
      a.store = some ⟨a.wrap addr, s32 value⟩ := by
  obtain ⟨addr, hAddr⟩ := (performed_fits h).address (.inr hKind)
  obtain ⟨value, hValue⟩ := (performed_fits h).value hKind
  refine ⟨addr, value, hAddr, hValue, ?_⟩
  unfold store
  rw [if_pos hKind, finished_of_not_load (by rw [hKind]; nofun)]
  simp only [hAddr, hValue]

/-- Only stores write memory. -/
theorem store_of_not_store (hKind : a.instruction.kind ≠ .store) : a.store = none := by
  unfold store
  rw [if_neg hKind]

theorem next_memory_of_not_store (hKind : a.instruction.kind ≠ .store) :
    a.next.memory = a.memory := by
  unfold next
  simp only [store_of_not_store hKind]

/-- A store changes the word at its address, however that is written. -/
theorem next_memory_of_store {s : Store} (hStore : a.store = some s) :
    a.next.memory = fun addr => if a.wrap addr = s.addr then s.value else a.memory addr := by
  unfold next
  simp only [hStore]

/-- Execution goes on at the target of a taken branch, and behind any other instruction. -/
theorem next_pc (a : Machine) :
    a.next.pc =
      if a.performed.1.taken then ((a.performed.1.target.getD 0 : Nat) : Int) else a.pc + 4 := by
  unfold next
  rfl

/-- Only taken branches flush. -/
theorem next_flushes (a : Machine) :
    a.next.flushes = a.flushes + if a.performed.1.taken then 1 else 0 := by
  unfold next
  rfl

/-- The machine stops at an instruction that ends the run. -/
theorem next_halted (a : Machine) :
    a.next.halted = (Pipeline.ending a.instruction.kind).isSome := by
  unfold next
  rfl

/-! The registers after an instruction. -/

/-- A register that an instruction produces holds its result. -/
theorem read_next_of_produces (h : a.Sound) {reg : Nat} (hReg : reg ≠ 0)
    (hProduces : a.instruction.produces = reg) {v : Int} (hValue : a.finished.result = some v) :
    a.next.registers.read reg = v := by
  have hLt : reg < 32 := hProduces ▸ Instruction.produces_decode_lt _
  unfold Instruction.produces at hProduces
  split at hProduces
  case isFalse => exact absurd hProduces.symm hReg
  rename_i hWrites
  have hRd : a.instruction.rd = reg := hProduces
  unfold next commit
  simp only [hWrites, if_true, hValue, hRd]
  rw [Registers.read_write_self _ hLt v hReg]
  exact finished_result h hValue

/-- All other registers keep their values. -/
theorem read_next_of_not (reg : Nat) (hOther : reg = 0 ∨ a.instruction.produces ≠ reg) :
    a.next.registers.read reg = a.registers.read reg := by
  rcases hOther with rfl | hNot
  · rfl
  · unfold Instruction.produces at hNot
    unfold next commit
    dsimp only
    split at hNot
    · rename_i hWrites
      rw [if_pos hWrites]
      cases a.finished.result with
      | none => rfl
      | some v =>
          dsimp only
          rw [if_pos hWrites]
          exact Registers.read_write_of_ne _ v hNot.symm
    · rename_i hWrites
      rw [if_neg hWrites]

theorem Registers_write_word {r : Registers} (h : ∀ i, IsWord (r.read i)) (i : Nat) (v : Int)
    (j : Nat) : IsWord ((r.write i v).read j) := by
  by_cases hSame : j = i
  · subst hSame
    by_cases hZero : j = 0
    · subst hZero
      exact h 0
    · by_cases hLt : j < 32
      · rw [Registers.read_write_self _ hLt v hZero]
        exact isWord_s32 v
      · unfold Registers.read
        rw [if_neg hZero, Vector.getElem?_eq_none (by omega)]
        exact isWord_zero
  · rw [Registers.read_write_of_ne _ v hSame]
    exact h j

/-- No instruction changes the shape of the units. -/
theorem next_frame (h : a.Sound) : a.next.units.frame = a.units.frame := by
  unfold next
  cases a.store with
  | none => exact performed_frame h
  | some s => exact (Units.frame_snoop _ _).trans (performed_frame h)

/-- The machine stays sound with every instruction. -/
theorem Sound.next (h : a.Sound) : a.next.Sound where
  size := by
    rw [next_size]
    exact h.size
  registers := by
    intro i
    unfold Machine.next
    dsimp only
    split
    · exact Registers_write_word h.registers _ _ i
    · exact h.registers i
  memory := by
    intro addr
    unfold Machine.next
    by_cases hKind : a.instruction.kind = .store
    · obtain ⟨_, value, -, -, hStore⟩ := store_of_store h hKind
      simp only [hStore]
      split
      · exact isWord_s32 value
      · exact h.memory addr
    · simp only [store_of_not_store hKind]
      exact h.memory addr
  periodic := by
    intro addr addr' hWrap
    rw [next_wrap, next_wrap] at hWrap
    unfold Machine.next
    cases a.store with
    | none => exact h.periodic addr addr' hWrap
    | some s =>
        dsimp only
        rw [hWrap, h.periodic addr addr' hWrap]
  fit := h.fit.of_frame (next_frame h)
  memWords := by
    have hFrame := congrArg (·.conv2d.memWords) (next_frame h)
    rw [next_size, ← h.memWords]
    exact hFrame

theorem Sound.after (h : a.Sound) (n : Nat) : (Machine.after n a).Sound := by
  induction n generalizing a with
  | zero => exact h
  | succ n ih => exact ih h.next

/-- Another instruction at the end. -/
theorem after_succ (n : Nat) (a : Machine) : after (n + 1) a = (after n a).next := by
  induction n generalizing a with
  | zero => rfl
  | succ n ih => exact ih a.next

/-- No instruction changes the program. -/
theorem after_program (a : Machine) (n : Nat) : (after n a).program = a.program := by
  induction n with
  | zero => rfl
  | succ n ih => rw [after_succ, next_program, ih]

theorem after_frame (h : a.Sound) (n : Nat) : (after n a).units.frame = a.units.frame := by
  induction n with
  | zero => rfl
  | succ n ih =>
      rw [after_succ, next_frame (h.after n)]
      exact ih

end Machine

end AccelPipe

import AccelPipe.Proofs.Pipeline.Operands
import AccelPipe.Proofs.Instruction.Decoded
import AccelPipe.Pipeline.Stage
import AccelPipe.Reference.Basic

/-! An instruction depends on no register but those that it declares. The hazard logic sees declared
operands alone; if an instruction read another one, it would read a stale value or none at all. Two
runs that agree on the declared operands have the same results, in the stages of the pipeline and on
the reference machine. -/
namespace AccelPipe

namespace Instruction

/-- Two sets of operands with the same values in all places that an instruction declares. -/
def Agree (ins : Instruction) (a b : Operands) : Prop :=
  ∀ o reg, (o, reg) ∈ ins.sources → a.get? o = b.get? o

namespace Agree

variable {ins : Instruction} {a b : Operands} (h : ins.Agree a b)
include h

/-- Operands agree on the sources that an instruction reads. -/
theorem value (o : Operand) (reg : Nat) (hReads : (o, reg) ∈ ins.sources) :
    a.value o = b.value o := congrArg (·.getD 0) (h o reg hReads)

/-- Arithmetic only depends on its sources. -/
theorem alu (pc : Int) : ins.alu a pc = ins.alu b pc := by
  have hFirst := h.value .rs1 ins.rs1
  have hSecond := h.value .rs2 ins.rs2
  unfold sources at hFirst hSecond
  unfold Instruction.alu Instruction.second Instruction.format
  cases hMnemonic : ins.mnemonic <;> rw [hMnemonic] at hFirst hSecond <;>
    simp only [Mnemonic.format, reduceCtorEq, reduceIte] <;>
    first
      | rw [hFirst (by simp), hSecond (by simp)]
      | rw [hFirst (by simp)]

/-- So does a branch, -/
theorem branch (pc : Int) : ins.branch a pc = ins.branch b pc := by
  have hFirst := h.value .rs1 ins.rs1
  have hSecond := h.value .rs2 ins.rs2
  unfold sources at hFirst hSecond
  unfold Instruction.branch
  cases hMnemonic : ins.mnemonic <;> rw [hMnemonic] at hFirst hSecond <;> dsimp only <;>
    first
      | rw [hFirst (by simp), hSecond (by simp)]
      | rw [hFirst (by simp)]

/-- a multiplication, -/
theorem mac (u : Mac) (p : Precision) (hKind : ins.kind = .mac)
    (hVariant : ins.funct3 = ins.mnemonic.variant) : u.execute p ins a = u.execute p ins b := by
  have hFirst := h.value .rs1 ins.rs1
  have hSecond := h.value .rs2 ins.rs2
  have hThird := h.value .rd ins.rd
  unfold sources at hFirst hSecond hThird
  unfold Mac.execute Mac.variant?
  rw [hVariant]
  rcases Mnemonic.of_kind_mac hKind with hMnemonic | hMnemonic | hMnemonic | hMnemonic <;>
    rw [hMnemonic] at hFirst hSecond hThird ⊢ <;>
    simp only [Mnemonic.variant, Mac.total, Mac.product, hFirst, hSecond, hThird, List.mem_cons,
      true_or, or_true]

/-- a rectifier, -/
theorem relu (u : Relu) (p : Precision) (hKind : ins.kind = .relu) :
    u.execute p ins a = u.execute p ins b := by
  have hReads : (Operand.rs1, ins.rs1) ∈ ins.sources := by
    rw [sources_of_relu hKind]
    exact List.mem_singleton_self _
  unfold Relu.execute Relu.value
  rw [h.value _ _ hReads]

/-- the place of a convolution, -/
theorem originOf (hMnemonic : ins.mnemonic = .conv2d) :
    Conv2d.originOf a = Conv2d.originOf b := by
  have hFirst := h.value .rs1 ins.rs1
  have hSecond := h.value .rs2 ins.rs2
  unfold sources at hFirst hSecond
  rw [hMnemonic] at hFirst hSecond
  unfold Conv2d.originOf
  rw [hFirst (by simp), hSecond (by simp)]

/-- a convolution, with the words that it reads, -/
theorem conv2d (u : Conv2d) (p : Precision) (hKind : ins.kind = .conv2d)
    (hVariant : ins.funct3 = ins.mnemonic.variant) (words : List Int) :
    u.reads ins a = u.reads ins b ∧ u.execute p ins a words = u.execute p ins b words := by
  unfold Conv2d.reads Conv2d.execute Conv2d.loads
  rw [hVariant]
  rcases Mnemonic.of_kind_conv2d hKind with hMnemonic | hMnemonic
  · rw [h.originOf hMnemonic]
    exact ⟨by rw [hMnemonic]; rfl, rfl⟩
  · have hFirst := h.value .rs1 ins.rs1
    unfold sources at hFirst
    rw [hMnemonic] at hFirst ⊢
    rw [hFirst (List.mem_singleton_self _)]
    exact ⟨rfl, rfl⟩

/-- a filter, -/
theorem fir (u : Fir) (p : Precision) (hKind : ins.kind = .fir)
    (hVariant : ins.funct3 = ins.mnemonic.variant) (words : List Int) :
    u.reads ins a = u.reads ins b ∧ u.execute p ins a words = u.execute p ins b words := by
  have hFirst := h.value .rs1 ins.rs1
  unfold sources at hFirst
  unfold Fir.reads Fir.execute Fir.loads Fir.clears
  rw [hVariant]
  rcases Mnemonic.of_kind_fir hKind with hMnemonic | hMnemonic | hMnemonic <;>
    rw [hMnemonic] at hFirst ⊢
  · rw [hFirst (List.mem_singleton_self _)]
    exact ⟨rfl, rfl⟩
  · rw [hFirst (List.mem_singleton_self _)]
    exact ⟨rfl, rfl⟩
  · exact ⟨rfl, rfl⟩

/-- and the place of a pooling window. -/
theorem origin (u : Pool) (hKind : ins.kind = .pool) : u.origin ins a = u.origin ins b := by
  have hFirst := h.value .rs1 ins.rs1
  have hSecond := h.value .rs2 ins.rs2
  rw [sources_of_pool hKind] at hFirst hSecond
  unfold Pool.origin
  cases hSlides : ins.slides with
  | true => rfl
  | false => rw [hFirst (by simp [hSlides]), hSecond (by simp [hSlides])]

/-- All accelerators read the same memory with operands that agree. -/
theorem reads (u : Units) {acc : Accelerator} (hKind : ins.kind = acc.kind)
    (hVariant : ins.funct3 = ins.mnemonic.variant) : u.reads acc ins a = u.reads acc ins b := by
  cases acc with
  | mac | relu => rfl
  | conv2d => exact (h.conv2d u.conv2d u.precision hKind hVariant []).1
  | fir => exact (h.fir u.fir u.precision hKind hVariant []).1
  | pool =>
      unfold Units.reads Pool.reads
      rw [h.origin u.pool hKind]

/-- They carry out the same operation, too. -/
theorem execute (u : Units) {acc : Accelerator} (hKind : ins.kind = acc.kind)
    (hVariant : ins.funct3 = ins.mnemonic.variant) (words : List Int) :
    u.execute acc ins a words = u.execute acc ins b words := by
  unfold Units.execute
  cases acc with
  | mac => rw [h.mac u.mac u.precision hKind hVariant]
  | relu => rw [h.relu u.relu u.precision hKind]
  | conv2d => rw [(h.conv2d u.conv2d u.precision hKind hVariant words).2]
  | fir => rw [(h.fir u.fir u.precision hKind hVariant words).2]
  | pool =>
      unfold Pool.execute
      rw [h.origin u.pool hKind]

/-- An operand is missing in both or in neither. -/
theorem needed {o : Operand} {reg : Nat} (hReads : (o, reg) ∈ ins.sources) :
    Pipeline.needed a o = Pipeline.needed b o := by
  unfold Pipeline.needed
  rw [h o reg hReads]

end Agree

end Instruction

/-- The step with other operands in its slot. -/
def StageStep.withOperands (ops : Operands) (step : StageStep) : StageStep :=
  { step with slot := { step.slot with operands := ops } }

namespace Instruction.Agree

variable {ins : Instruction} {a b : Operands} (h : ins.Agree a b)
include h

/-- An issue to a unit depends on the sources only, with all that it does to the pipeline. -/
theorem issueAccelerator (p : Pipeline) (s : Slot) (acc : Accelerator)
    (hKind : ins.kind = acc.kind) (hVariant : ins.funct3 = ins.mnemonic.variant)
    (mem : Option Slot) :
    p.issueAccelerator { s with operands := b } ins acc mem =
      (p.issueAccelerator { s with operands := a } ins acc mem).map (.withOperands b) := by
  unfold Pipeline.issueAccelerator
  dsimp only
  rw [← h.reads p.units hKind hVariant]
  generalize p.units.reads acc ins a = addrs
  generalize (if addrs.isEmpty = true then ([], p.memory) else
    p.memory.reserveBurst addrs p.cycle (p.units.latency acc)) = burst
  obtain ⟨blocked, memory⟩ := burst
  cases Hazard.storeAhead mem with
  | error f => rfl
  | ok ahead =>
      rw [ok_bind, ok_bind, h.execute p.units hKind hVariant]
      split
      · rfl
      · dsimp only
        split
        · rfl
        · cases (p.units.execute acc ins b (memory.readBlock addrs)).1 <;> rfl

/-- So does every issue. -/
theorem issue (p : Pipeline) (s : Slot)
    (hVariant : ins.kind.accelerated = true → ins.funct3 = ins.mnemonic.variant)
    (mem : Option Slot) :
    p.issue { s with operands := b } ins mem =
      (p.issue { s with operands := a } ins mem).map (.withOperands b) := by
  unfold Pipeline.issue
  dsimp only
  cases hKind : ins.kind with
  | alu =>
      dsimp only
      rw [h.alu]
      cases ins.alu b s.pc <;> rfl
  | branch =>
      dsimp only
      rw [h.branch]
      cases ins.branch b s.pc <;> rfl
  | load =>
      dsimp only
      rw [h.needed (rs1_mem_sources (.inl hKind))]
      cases Pipeline.needed b .rs1 <;> rfl
  | store =>
      dsimp only
      rw [h.needed (rs1_mem_sources (.inr hKind)), h.needed (rs2_mem_sources hKind)]
      cases Pipeline.needed b .rs1 with
      | error => rfl
      | ok => cases Pipeline.needed b .rs2 <;> rfl
  | mac => exact h.issueAccelerator p s .mac hKind (hVariant (by rw [hKind]; rfl)) mem
  | relu => exact h.issueAccelerator p s .relu hKind (hVariant (by rw [hKind]; rfl)) mem
  | conv2d =>
      exact h.issueAccelerator p s .conv2d hKind (hVariant (by rw [hKind]; rfl)) mem
  | fir => exact h.issueAccelerator p s .fir hKind (hVariant (by rw [hKind]; rfl)) mem
  | pool => exact h.issueAccelerator p s .pool hKind (hVariant (by rw [hKind]; rfl)) mem
  | system | illegal => rfl

end Instruction.Agree

namespace Reference

/-- The machine with other registers. -/
def withRegisters (r : Reference) (regs : Registers) : Reference := { r with registers := regs }

section Reads

variable {r : Reference} {regs : Registers} {ins : Instruction}
  (h : ∀ source ∈ ins.sources, regs.read source.2 = r.registers.read source.2)
include h

/-- The arithmetic of the reference machine only depends on the registers that the instruction
reads, -/
theorem arithmeticResult_reads (hKind : ins.kind = .alu) (pc : Int) :
    arithmeticResult ins (regs.read ins.rs1) (regs.read ins.rs2) pc =
      arithmeticResult ins (r.registers.read ins.rs1) (r.registers.read ins.rs2) pc := by
  have hFirst := h (.rs1, ins.rs1)
  have hSecond := h (.rs2, ins.rs2)
  unfold Instruction.kind at hKind
  unfold Instruction.sources at hFirst hSecond
  unfold arithmeticResult
  cases hMnemonic : ins.mnemonic <;> rw [hMnemonic] at hKind hFirst hSecond <;>
    simp only [operation?, registerForm?] <;>
    first
      | cases hKind; done
      | rw [hFirst (by simp), hSecond (by simp)]
      | rw [hFirst (by simp)]

/-- its branches on those that they compare, -/
theorem jump_reads (pc : Int) :
    jump ins (regs.read ins.rs1) (regs.read ins.rs2) pc =
      jump ins (r.registers.read ins.rs1) (r.registers.read ins.rs2) pc := by
  have hFirst := h (.rs1, ins.rs1)
  have hSecond := h (.rs2, ins.rs2)
  unfold Instruction.sources at hFirst hSecond
  unfold jump
  cases hMnemonic : ins.mnemonic <;> rw [hMnemonic] at hFirst hSecond <;>
    simp only [condition?] <;>
    first
      | with_reducible rfl
      | rw [hFirst (by simp), hSecond (by simp)]
      | rw [hFirst (by simp)]

/-- and so do all its accelerators, which do not look at other registers. -/
theorem multiply_reads (hKind : ins.kind = .mac) :
    (r.withRegisters regs).multiply ins (regs.read ins.rs1) (regs.read ins.rs2) =
      (r.multiply ins (r.registers.read ins.rs1) (r.registers.read ins.rs2)).map id
        (·.withRegisters regs) := by
  have hFirst := h (.rs1, ins.rs1)
  have hSecond := h (.rs2, ins.rs2)
  have hThird := h (.rd, ins.rd)
  unfold Instruction.sources at hFirst hSecond hThird
  unfold multiply withRegisters
  rcases Mnemonic.of_kind_mac hKind with hMnemonic | hMnemonic | hMnemonic | hMnemonic <;>
    rw [hMnemonic] at hFirst hSecond hThird <;>
    simp only [hMnemonic, hFirst, hSecond, hThird, List.mem_cons, true_or, or_true] <;>
    rfl

theorem rectify_reads (hKind : ins.kind = .relu) :
    (r.withRegisters regs).rectify ins (regs.read ins.rs1) =
      r.rectify ins (r.registers.read ins.rs1) := by
  rw [Instruction.sources_of_relu hKind] at h
  rw [h (.rs1, ins.rs1) (List.mem_singleton_self _)]
  rfl

theorem convolve_reads (hKind : ins.kind = .conv2d) :
    (r.withRegisters regs).convolve ins (regs.read ins.rs1) (regs.read ins.rs2) =
      (r.convolve ins (r.registers.read ins.rs1) (r.registers.read ins.rs2)).map id
        (·.withRegisters regs) := by
  have hFirst := h (.rs1, ins.rs1)
  have hSecond := h (.rs2, ins.rs2)
  unfold Instruction.sources at hFirst hSecond
  unfold convolve
  rcases Mnemonic.of_kind_conv2d hKind with hMnemonic | hMnemonic <;>
    rw [hMnemonic] at hFirst hSecond ⊢
  · rw [hFirst (by simp), hSecond (by simp)]
    rfl
  · rw [hFirst (by simp)]
    rfl

theorem filter_reads (hKind : ins.kind = .fir) :
    (r.withRegisters regs).filter ins (regs.read ins.rs1) =
      (r.filter ins (r.registers.read ins.rs1)).map id (·.withRegisters regs) := by
  have hFirst := h (.rs1, ins.rs1)
  unfold Instruction.sources at hFirst
  unfold filter
  rcases Mnemonic.of_kind_fir hKind with hMnemonic | hMnemonic | hMnemonic <;>
    rw [hMnemonic] at hFirst ⊢
  · rw [hFirst (by simp)]
    rfl
  · rw [hFirst (by simp)]
    rfl
  · rfl

theorem pool_reads (hKind : ins.kind = .pool) :
    (r.withRegisters regs).pool ins (regs.read ins.rs1) (regs.read ins.rs2) =
      (r.pool ins (r.registers.read ins.rs1) (r.registers.read ins.rs2)).map id
        (·.withRegisters regs) := by
  have hFirst := h (.rs1, ins.rs1)
  have hSecond := h (.rs2, ins.rs2)
  rw [Instruction.sources_of_pool hKind] at hFirst hSecond
  have hPlace : (if ins.slides then (r.poolNext, r.poolPitch)
        else (regs.read ins.rs1, regs.read ins.rs2)) =
      if ins.slides then (r.poolNext, r.poolPitch)
        else (r.registers.read ins.rs1, r.registers.read ins.rs2) := by
    cases hSlides : ins.slides with
    | true => rfl
    | false => rw [hFirst (by simp [hSlides]), hSecond (by simp [hSlides])]
  unfold pool withRegisters
  dsimp only
  rw [hPlace]
  generalize (if ins.slides then (r.poolNext, r.poolPitch)
    else (r.registers.read ins.rs1, r.registers.read ins.rs2)) = place
  obtain ⟨base, pitch⟩ := place
  dsimp only
  split <;> rfl

/-- What an instruction does to the accelerators, and its effect, depend on its sources. -/
theorem effect_reads (pc : Int) :
    (r.withRegisters regs).effect ins pc = (r.effect ins pc).map id (·.withRegisters regs) := by
  have hOther : (r.withRegisters regs).registers = regs := rfl
  unfold effect
  rw [hOther]
  dsimp only
  cases hKind : ins.kind with
  | alu =>
      dsimp only
      rw [arithmeticResult_reads h hKind]
      rfl
  | load =>
      dsimp only
      rw [h _ (Instruction.rs1_mem_sources (.inl hKind))]
      rfl
  | store =>
      dsimp only
      rw [h _ (Instruction.rs1_mem_sources (.inr hKind)), h _ (Instruction.rs2_mem_sources hKind)]
      rfl
  | branch =>
      dsimp only
      rw [jump_reads h]
      rfl
  | mac =>
      dsimp only
      rw [multiply_reads h hKind]
      rfl
  | relu =>
      dsimp only
      rw [rectify_reads h hKind]
      rfl
  | conv2d =>
      dsimp only
      rw [convolve_reads h hKind]
      rfl
  | fir =>
      dsimp only
      rw [filter_reads h hKind]
      rfl
  | pool =>
      dsimp only
      rw [pool_reads h hKind]
      rfl
  | system | illegal => rfl

end Reads

end Reference

/-- The value that an instruction with some result writes to its register. -/
def Instruction.written? (ins : Instruction) (result : Except Failure Effect) : Option Int :=
  match result with
  | .ok e => if ins.writesRd then e.value else none
  | .error _ => none

/-- The registers after a value, if there is one, has been written. -/
def Registers.put (regs : Registers) (rd : Nat) (value : Option Int) : Registers :=
  match value with
  | some v => regs.write rd v
  | none => regs

/-- Two register files differ after the same write only where they differed before, and not where it
has gone. -/
theorem Registers.differ_of_put {regs others : Registers} {rd : Nat} (hRd : rd < 32)
    {value : Option Int} {i : Nat} (h : (others.put rd value).read i ≠ (regs.put rd value).read i) :
    others.read i ≠ regs.read i ∧ (value ≠ none → i ≠ rd) := by
  cases value with
  | none => exact ⟨h, fun hSome => absurd rfl hSome⟩
  | some v =>
      unfold put at h
      have hOther : i ≠ rd := by
        rintro rfl
        by_cases hZero : i = 0
        · exact h (by rw [hZero]; rfl)
        · exact h (by rw [read_write_self _ hRd v hZero, read_write_self _ hRd v hZero])
      rw [read_write_of_ne _ v hOther, read_write_of_ne _ v hOther] at h
      exact ⟨h, fun _ => hOther⟩

namespace Reference

/-- With other registers an instruction whose sources are the same has the same result and writes
it to the same register. -/
theorem execute_reads {r : Reference} {regs : Registers} {ins : Instruction}
    (h : ∀ source ∈ ins.sources, regs.read source.2 = r.registers.read source.2) (pc : Int) :
    (r.withRegisters regs).execute ins pc =
      ((r.execute ins pc).1,
        (r.execute ins pc).2.withRegisters
          (regs.put ins.rd (ins.written? (r.execute ins pc).1))) := by
  unfold execute
  rw [effect_reads h]
  rcases r.effect ins pc with ⟨result, r'⟩
  cases result with
  | error f => rfl
  | ok e =>
      obtain ⟨value, store, nextPc⟩ := e
      unfold Instruction.written? apply writeBack
      dsimp only [Prod.map, id]
      cases value with
      | none => cases store <;> cases ins.writesRd <;> rfl
      | some v => cases store <;> cases ins.writesRd <;> rfl

/-- No instruction changes a register but the one that it writes its result to. -/
theorem registers_execute (r : Reference) (ins : Instruction) (pc : Int) :
    (r.execute ins pc).2.registers =
      r.registers.put ins.rd (ins.written? (r.execute ins pc).1) := by
  have hSame : ∀ source ∈ ins.sources,
      r.registers.read source.2 = r.registers.read source.2 := fun _ _ => rfl
  exact congrArg (·.2.registers) (execute_reads hSame pc)

end Reference

/-- Operands that agree wherever Decode supplies one agree in all places that the instruction
declares. -/
theorem Instruction.agree_of_supplied {ins : Instruction} {registers : Registers}
    {wb : Option Slot} {a b : Operands}
    (h : ∀ o, ((Hazard.readOperands ins registers wb).operands.get? o).isSome = true →
      a.get? o = b.get? o) : ins.Agree a b := by
  intro o reg hReads
  refine h o ?_
  rw [Hazard.get?_readOperands, lookup_of_mem ins.sources_nodup hReads]
  rfl

/-- Declared sources are complete. If two reference machines differ in nothing but registers that an
instruction does not declare, it has the same result on both, makes the same changes, and leaves
them different only in registers in which they differed before, the one that it has written
excepted. The pipeline sees the operands that Decode supplies: with the same values in these places
the arithmetic unit, the branch unit, the address and the value of a store, all that Execute does to
start the instruction, and the accelerator unit of the instruction have the same results. -/
theorem Instruction.sources_complete (word : Int) :
    let ins := Instruction.decode word
    (∀ (r : Reference) (regs : Registers) (pc : Int),
      (∀ source ∈ ins.sources, regs.read source.2 = r.registers.read source.2) →
      let mine := r.execute ins pc
      let other := (r.withRegisters regs).execute ins pc
      other.1 = mine.1 ∧
      other.2 = mine.2.withRegisters other.2.registers ∧
      mine.2.registers = r.registers.put ins.rd (ins.written? mine.1) ∧
      other.2.registers = regs.put ins.rd (ins.written? mine.1) ∧
      ∀ i, other.2.registers.read i ≠ mine.2.registers.read i →
        regs.read i ≠ r.registers.read i ∧ (ins.written? mine.1 ≠ none → i ≠ ins.rd)) ∧
    ∀ (registers : Registers) (wb : Option Slot) (a b : Operands),
      (∀ o, ((Hazard.readOperands ins registers wb).operands.get? o).isSome = true →
        a.get? o = b.get? o) →
      (∀ pc, ins.alu a pc = ins.alu b pc ∧ ins.branch a pc = ins.branch b pc) ∧
      (∀ (p : Pipeline) (s : Slot) (mem : Option Slot),
        p.issue { s with operands := b } ins mem =
          (p.issue { s with operands := a } ins mem).map (.withOperands b)) ∧
      ∀ (u : Units) (acc : Accelerator), ins.kind = acc.kind →
        u.reads acc ins a = u.reads acc ins b ∧
        ∀ words, u.execute acc ins a words = u.execute acc ins b words := by
  intro ins
  have hVariant : ins.kind.accelerated = true → ins.funct3 = ins.mnemonic.variant :=
    funct3_decode word
  refine ⟨fun r regs pc hSame => ?_, fun registers wb a b hSame => ?_⟩
  · intro mine other
    have hOther : other =
        (mine.1, mine.2.withRegisters (regs.put ins.rd (ins.written? mine.1))) :=
      Reference.execute_reads hSame pc
    have hMine : mine.2.registers = r.registers.put ins.rd (ins.written? mine.1) :=
      r.registers_execute ins pc
    rw [hOther]
    refine ⟨rfl, rfl, hMine, rfl, fun i hDiffer => ?_⟩
    rw [hMine] at hDiffer
    exact Registers.differ_of_put (rd_decode_lt word) hDiffer
  · have hAgree : ins.Agree a b := agree_of_supplied hSame
    refine ⟨fun pc => ⟨hAgree.alu pc, hAgree.branch pc⟩, fun p s mem => ?_, fun u acc hKind => ?_⟩
    · exact hAgree.issue p s hVariant mem
    · have hAccelerated : ins.kind.accelerated = true := by
        rw [hKind]
        cases acc <;> rfl
      exact ⟨hAgree.reads u hKind (hVariant hAccelerated),
        fun words => hAgree.execute u hKind (hVariant hAccelerated) words⟩

/-- An instruction that starts a new sum writes register 3 and does not declare it. It has the same
result whatever that register held, and takes no notice of a third operand. -/
theorem Instruction.sources_complete_of_macz :
    let ins := Instruction.decode 0x20b18c
    let r := (Reference.fresh .small #[]).withRegisters ((({} : Registers).write 1 3).write 2 5)
    let regs := r.registers.write 3 9
    let a : Operands := { rs1 := some 3, rs2 := some 5 }
    let b : Operands := { a with rd := some 9 }
    let u := Units.fresh .small
    (ins.mnemonic = .macz ∧ ins.rd = 3 ∧ regs.read 3 ≠ r.registers.read 3) ∧
      (∀ source ∈ ins.sources, regs.read source.2 = r.registers.read source.2) ∧
      ((r.withRegisters regs).execute ins 0).1 = (r.execute ins 0).1 ∧
      (∀ o, ((Hazard.readOperands ins regs none).operands.get? o).isSome = true →
        a.get? o = b.get? o) ∧
      ins.kind = Accelerator.kind .mac ∧
      u.execute .mac ins a [] = u.execute .mac ins b [] := by
  intro ins r regs a b u
  have hSources : ins.sources = [(.rs1, 1), (.rs2, 2)] := by decide +kernel
  have hSame : ∀ source ∈ ins.sources, regs.read source.2 = r.registers.read source.2 := by
    rw [hSources]
    decide +kernel
  have hSupplied : ∀ o, ((Hazard.readOperands ins regs none).operands.get? o).isSome = true →
      a.get? o = b.get? o := by
    intro o
    cases o <;> decide +kernel
  have hKind : ins.kind = Accelerator.kind .mac := by decide +kernel
  obtain ⟨hReference, hPipeline⟩ := sources_complete 0x20b18c
  obtain ⟨-, -, hUnits⟩ := hPipeline regs none a b hSupplied
  exact ⟨by decide +kernel, hSame, (hReference r regs 0 hSame).1, hSupplied, hKind,
    (hUnits u .mac hKind).2 []⟩

end AccelPipe

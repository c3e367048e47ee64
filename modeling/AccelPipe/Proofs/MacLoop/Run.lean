import AccelPipe.Proofs.FullSpeed
import AccelPipe.Proofs.Machine.Next
import AccelPipe.Proofs.MacLoop.Image
import AccelPipe.Proofs.Reference.Onward

/-! The counted loop as it runs. Each turn adds a product, counts down and goes back, so that the
counter and the sum tell how many turns there have been. The counter is a word: large counts begin
below zero. -/
namespace AccelPipe

/-- The instruction at a place in a program. -/
theorem Machine.instruction_of_word {a : Machine} {words : List Nat} {place w : Nat}
    (hProgram : a.program = words.toArray) (hPc : a.pc = 4 * (place : Int))
    (hWord : words[place]? = some w) : a.instruction = Instruction.decode w := by
  unfold instruction
  rw [hProgram, hPc, Image.fetch_toArray hWord]

/-- A sum that has been clamped before goes on like one that has not. -/
theorem fitted_min_add {sum step : Int} {bits : Nat} (hSum : 0 ≤ sum) (hStep : 0 ≤ step) :
    fitted (min sum (2 ^ (bits - 1) - 1) + step) bits true =
      min (sum + step) (2 ^ (bits - 1) - 1) := by
  have hPower : (0 : Int) < 2 ^ (bits - 1) := by positivity
  unfold fitted
  rw [if_pos rfl]
  generalize (2 : Int) ^ (bits - 1) = power at hPower ⊢
  omega

/-- The machine at another instruction, with other registers. -/
def Machine.goneOn (a : Machine) (registers : Registers) (pc : Int) : Machine :=
  { a with registers, pc, halted := false }

/-- The words of a load, wherever they stand, load their number. -/
theorem Assembly.LoadsInto.leads {words : List Nat} {rd : Nat} {v : Int} (h : LoadsInto words rd v)
    (hRd : rd < 32) {a : Machine} (before behind : List Nat)
    (hProgram : a.program = (before ++ words ++ behind).toArray)
    (hPc : a.pc = 4 * (before.length : Int)) :
    a.Leads words.length
      (a.goneOn (a.registers.write rd v) (4 * ((before ++ words).length : Int))) := by
  rcases h with ⟨w, rfl, hAddi, hRs1, hDest, hImm⟩ |
    ⟨upper, lower, rfl, hLui, hDest, hAddi, hFrom, hSame, hSum⟩
  · have hIns : a.instruction = Instruction.decode w :=
      Machine.instruction_of_word hProgram hPc (by simp)
    rw [← hIns] at hAddi hRs1 hDest hImm
    have hLeads := Machine.Leads.of_mnemonic hAddi rfl rfl
    rw [Machine.next_addi hAddi, hRs1, hDest, hImm, Registers.read_zero, Int.zero_add,
      hPc] at hLeads
    rw [List.length_append]
    exact hLeads
  · have hIns : a.instruction = Instruction.decode upper :=
      Machine.instruction_of_word hProgram hPc (by simp)
    rw [← hIns] at hLui hDest hSum
    have hUpper := Machine.Leads.of_mnemonic hLui rfl rfl
    have hNext := Machine.next_lui hLui
    rw [hDest, hPc] at hNext
    have hBehind : a.next.pc = 4 * ((before.length + 1 : Nat) : Int) := by
      rw [hNext]
      push_cast
      omega
    have hLast : a.next.instruction = Instruction.decode lower :=
      Machine.instruction_of_word (a.next_program.trans hProgram) hBehind (by simp)
    rw [← hLast] at hAddi hFrom hSame hSum
    have hLower := Machine.Leads.of_mnemonic hAddi rfl rfl
    rw [Machine.next_addi hAddi, hFrom, hSame, hBehind] at hLower
    generalize a.next.instruction.imm = low at hLower hSum
    rw [hNext] at hLower hUpper
    dsimp only at hLower
    rw [a.registers.write_add hRd (s32_of_u32 hSum)] at hLower
    have hBoth := hUpper.trans hLower
    rw [List.length_append]
    exact hBoth

/-- A word is zero only if all of its bits are. -/
theorem eq_zero_of_s32 {v : Int} (hLow : 0 ≤ v) (hHigh : v < 0x100000000) (h : s32 v = s32 0) :
    v = 0 := by
  have hSame : u32 v = u32 0 := by rw [← u32_s32, h, u32_s32]
  unfold u32 at hSame
  omega

namespace MacLoop

open Assembly Pipeline

/-- The sum of so many products, as far as accumulator and register have room for it. -/
def sumOf (p : Precision) (products : Nat) : Int :=
  min (12 * products) (2 ^ (min p.accBits 32 - 1) - 1)

/-- Another product is added to the sum, which is clamped. -/
theorem fitted_sumOf (p : Precision) (products : Nat) :
    fitted (sumOf p products + 12) (min p.accBits 32) true = sumOf p (products + 1) := by
  unfold sumOf
  rw [fitted_min_add (by omega) (by decide)]
  push_cast
  rw [Int.mul_add]
  rfl

/-- Sums are words. -/
theorem isWord_sumOf {p : Precision} (hWidth : 0 < p.accBits) (products : Nat) :
    IsWord (sumOf p (products + 1)) := by
  have hPos : 0 < min p.accBits 32 := Nat.lt_min.mpr ⟨hWidth, by decide⟩
  obtain ⟨hLow, hHigh⟩ := fits_iff_signedRange.mp (fits_fitted hPos (sumOf p products + 12) true)
  rw [← fitted_sumOf]
  exact isWord_of_signedRange hPos (Nat.min_le_right _ _) hLow hHigh

theorem sumOf_zero (p : Precision) : sumOf p 0 = 0 := by
  have hPower : (0 : Int) < 2 ^ (min p.accBits 32 - 1) := by positivity
  unfold sumOf
  omega

/-- A machine that executes the loop: how many words it is behind the load of the counter, what is
left of the count, and how many products and jumps there have been. -/
structure At (first : List Nat) (p : Precision) (a : Machine) (place : Nat) (left : Int)
    (products flushes : Nat) : Prop where
  program : a.program = (first ++ loopWords).toArray
  precision : a.units.precision = p
  pc : a.pc = 4 * ((first.length + place : Nat) : Int)
  counter : a.registers.read 1 = s32 left
  factors : p.operand (a.registers.read 2) * p.operand (a.registers.read 3) = 12
  sum : a.registers.read 4 = sumOf p products
  flushes : a.flushes = flushes

namespace At

variable {first : List Nat} {p : Precision} {a : Machine} {left : Int} {products flushes : Nat}

/-- The instruction that comes next. -/
theorem instruction {place w : Nat} (h : At first p a place left products flushes)
    (hWord : loopWords[place]? = some w) : a.instruction = Instruction.decode w := by
  refine Machine.instruction_of_word h.program h.pc ?_
  rw [List.getElem?_append_right (Nat.le_add_right _ _), Nat.add_sub_cancel_left, hWord]

/-- An instruction that writes neither factor goes on to the next word. -/
theorem written {place rd : Nat} {v : Int} {units : Units} {left' : Int} {products' : Nat}
    (h : At first p a place left products flushes)
    (hNext : a.next = { a with
      registers := a.registers.write rd v, units, pc := a.pc + 4, halted := false })
    (hUnits : units.precision = p) (hSecond : 2 ≠ rd) (hThird : 3 ≠ rd)
    (hCounter : (a.registers.write rd v).read 1 = s32 left')
    (hSum : (a.registers.write rd v).read 4 = sumOf p products') :
    At first p a.next (place + 1) left' products' flushes := by
  rw [hNext]
  refine ⟨h.program, hUnits, ?_, hCounter, ?_, hSum, h.flushes⟩
  · dsimp only
    rw [h.pc]
    push_cast
    omega
  · dsimp only
    rw [a.registers.read_write_of_ne v hSecond, a.registers.read_write_of_ne v hThird]
    exact h.factors

/-- A product is added. -/
theorem mac (h : At first p a 2 left products flushes) (hWidth : 0 < p.accBits) :
    a.Leads 1 a.next ∧ At first p a.next 3 left (products + 1) flushes := by
  obtain ⟨hMac, hRd, hRs1, hRs2⟩ : a.instruction.mnemonic = .mac ∧ a.instruction.rd = 4 ∧
      a.instruction.rs1 = 2 ∧ a.instruction.rs2 = 3 := by
    rw [h.instruction (w := 0x31020c) rfl]
    decide +kernel
  obtain ⟨units, hUnits, hNext⟩ := Machine.next_mac hMac (h.precision.symm ▸ hWidth)
  rw [hRd, hRs1, hRs2, h.precision, h.factors, h.sum, fitted_sumOf] at hNext
  refine ⟨Machine.Leads.of_mnemonic hMac rfl rfl, ?_⟩
  refine h.written hNext (hUnits.trans h.precision) (by decide) (by decide) ?_ ?_
  · exact (a.registers.read_write_of_ne _ (by decide)).trans h.counter
  · exact (a.registers.read_write_self (by decide) _ (by decide)).trans
      (isWord_sumOf hWidth products)

/-- The counter goes down. -/
theorem addi (h : At first p a 3 left products flushes) :
    a.Leads 1 a.next ∧ At first p a.next 4 (left - 1) products flushes := by
  obtain ⟨hAddi, hRd, hRs1, hImm⟩ : a.instruction.mnemonic = .addi ∧ a.instruction.rd = 1 ∧
      a.instruction.rs1 = 1 ∧ a.instruction.imm = -1 := by
    rw [h.instruction (w := 0xfff08093) rfl]
    decide +kernel
  have hNext := Machine.next_addi hAddi
  rw [hRd, hRs1, hImm, h.counter] at hNext
  refine ⟨Machine.Leads.of_mnemonic hAddi rfl rfl, ?_⟩
  refine h.written hNext h.precision (by decide) (by decide) ?_ ?_
  · exact (a.registers.read_write_self (by decide) _ (by decide)).trans (s32_add_s32 left (-1))
  · exact (a.registers.read_write_of_ne _ (by decide)).trans h.sum

/-- As long as something is left of the count, the loop goes back to its top. -/
theorem bne (h : At first p a 4 left products flushes) (hFirst : first.length ≤ 2)
    (hLow : 0 ≤ left) (hHigh : left < 0x100000000) :
    a.Leads 1 a.next ∧
      if left = 0 then At first p a.next 5 left products flushes
      else At first p a.next 2 left products (flushes + 1) := by
  obtain ⟨hBne, hRs1, hRs2, hImm⟩ : a.instruction.mnemonic = .bne ∧ a.instruction.rs1 = 1 ∧
      a.instruction.rs2 = 0 ∧ a.instruction.imm = -8 := by
    rw [h.instruction (w := 0xfe009ce3) rfl]
    decide +kernel
  have hZero : s32 (s32 left) = s32 (a.registers.read 0) ↔ left = 0 :=
    ⟨fun hSame => eq_zero_of_s32 hLow hHigh ((isWord_s32 left).symm.trans hSame),
      fun hNone => hNone ▸ isWord_s32 0⟩
  have hNext := Machine.next_bne hBne
  rw [hRs1, hRs2, hImm, h.counter] at hNext
  refine ⟨Machine.Leads.of_mnemonic hBne rfl rfl, ?_⟩
  rw [hNext]
  split
  · rename_i hNone
    refine ⟨h.program, h.precision, ?_, h.counter, h.factors, h.sum, ?_⟩
    · dsimp only
      rw [if_pos (hZero.mpr hNone), h.pc]
      push_cast
      omega
    · dsimp only
      rw [if_pos (hZero.mpr hNone)]
      exact h.flushes
  · rename_i hSome
    refine ⟨h.program, h.precision, ?_, h.counter, h.factors, h.sum, ?_⟩
    · dsimp only
      rw [if_neg (fun hSame => hSome (hZero.mp hSame)), h.pc]
      unfold u32
      push_cast
      omega
    · dsimp only
      rw [if_neg (fun hSame => hSome (hZero.mp hSame)), h.flushes]

/-- One turn of the loop, which is the last one if nothing is left then. -/
theorem turn (h : At first p a 2 (left + 1) products flushes) (hWidth : 0 < p.accBits)
    (hFirst : first.length ≤ 2) (hLow : 0 ≤ left) (hHigh : left < 0x100000000) :
    ∃ b, a.Leads 3 b ∧
      if left = 0 then At first p b 5 left (products + 1) flushes
      else At first p b 2 left (products + 1) (flushes + 1) := by
  obtain ⟨hMac, hAdded⟩ := h.mac hWidth
  obtain ⟨hAddi, hCounted⟩ := hAdded.addi
  rw [Int.add_sub_cancel] at hCounted
  obtain ⟨hBne, hTurned⟩ := hCounted.bne hFirst hLow hHigh
  exact ⟨_, (hMac.trans hAddi).trans hBne, hTurned⟩

/-- The loop turns until nothing is left of the count. -/
theorem all_turns {count : Nat} (h : At first p a 2 ((count + 1 : Nat) : Int) products flushes)
    (hWidth : 0 < p.accBits) (hFirst : first.length ≤ 2) (hCount : count < 0x100000000) :
    ∃ b, a.Leads (3 * (count + 1)) b ∧
      At first p b 5 0 (products + (count + 1)) (flushes + count) := by
  -- on what is left after a turn, which the next one begins with
  induction count generalizing a products flushes with
  | zero =>
      obtain ⟨b, hTurn, hEnd⟩ := h.turn hWidth hFirst (Int.le_refl 0) (by decide)
      exact ⟨b, hTurn, hEnd⟩
  | succ count ih =>
      have hMore : At first p a 2 (((count + 1 : Nat) : Int) + 1) products flushes := h
      obtain ⟨b, hTurn, hBack⟩ := hMore.turn hWidth hFirst (by omega) (by omega)
      rw [if_neg (by omega)] at hBack
      obtain ⟨d, hRest, hEnd⟩ := ih hBack (by omega)
      refine ⟨d, ?_, ?_⟩
      · rw [show 3 * (count + 1 + 1) = 3 + 3 * (count + 1) by omega]
        exact hTurn.trans hRest
      · rw [show products + (count + 1 + 1) = products + 1 + (count + 1) by omega,
          show flushes + (count + 1) = flushes + 1 + count by omega]
        exact hEnd

end At

/-- The factors are exact at every width of operands. -/
theorem factors_exact (c : Config) :
    c.precision.operand (s32 3) * c.precision.operand (s32 4) = 12 := by
  change signExtend (s32 3) c.operandType.bits * signExtend (s32 4) c.operandType.bits = 12
  cases c.operandType <;> decide

/-- What comes before the loop loads the counter and the factors. -/
theorem at_top {first : List Nat} {count : Nat} (hLoads : LoadsInto first 1 count) {a : Machine}
    (hProgram : a.program = (first ++ loopWords).toArray) (hPc : a.pc = 0)
    (hFactors : a.units.precision.operand (s32 3) * a.units.precision.operand (s32 4) = 12)
    (hSum : a.registers.read 4 = 0) (hFlushes : a.flushes = 0) :
    ∃ b, a.Leads (first.length + 2) b ∧ At first a.units.precision b 2 count 0 0 := by
  have hSecond : LoadsInto [0x300113] 2 3 := .inl ⟨_, rfl, by decide +kernel⟩
  have hThird : LoadsInto [0x400193] 3 4 := .inl ⟨_, rfl, by decide +kernel⟩
  have hCounter := hLoads.leads (by decide) [] loopWords hProgram hPc
  have hFactor := hSecond.leads (by decide) first (loopWords.drop 1)
    (a := a.goneOn (a.registers.write 1 count) (4 * (first.length : Int)))
    (by rw [List.append_assoc]; exact hProgram) rfl
  have hOther := hThird.leads (by decide) (first ++ [0x300113]) (loopWords.drop 2)
    (a := a.goneOn ((a.registers.write 1 count).write 2 3)
      (4 * ((first ++ [0x300113]).length : Int)))
    (by rw [List.append_assoc, List.append_assoc]; exact hProgram) rfl
  refine ⟨_, (hCounter.trans hFactor).trans hOther, hProgram, rfl, ?_, ?_, ?_, ?_, hFlushes⟩
  · change 4 * ((first ++ [0x300113] ++ [0x400193]).length : Int) = _
    rw [List.append_assoc, List.length_append]
    rfl
  · change (((a.registers.write 1 count).write 2 3).write 3 4).read 1 = _
    rw [Registers.read_write_of_ne _ _ (by decide), Registers.read_write_of_ne _ _ (by decide),
      Registers.read_write_self _ (by decide) _ (by decide)]
  · change a.units.precision.operand ((((a.registers.write 1 count).write 2 3).write 3 4).read 2) *
      a.units.precision.operand ((((a.registers.write 1 count).write 2 3).write 3 4).read 3) = _
    rw [Registers.read_write_self _ (by decide) _ (by decide),
      Registers.read_write_of_ne _ _ (by decide),
      Registers.read_write_self _ (by decide) _ (by decide)]
    exact hFactors
  · change (((a.registers.write 1 count).write 2 3).write 3 4).read 4 = _
    rw [Registers.read_write_of_ne _ _ (by decide), Registers.read_write_of_ne _ _ (by decide),
      Registers.read_write_of_ne _ _ (by decide), hSum, sumOf_zero]

/-- A run of the loop that has come to its end: what it has computed, and how long it has taken. -/
structure Finished (c : Config) (count : Nat) (s : Simulator) : Prop where
  exited : s.report.status = .exited
  passed : s.report.passed = true
  counter : s.pipeline.registers.read 1 = 0
  sum : s.pipeline.registers.read 4 =
    min (12 * (count : Int)) (2 ^ (min c.precision.accBits 32 - 1) - 1)
  retired : s.report.retired = loadWords count + 3 * count + 3
  cycles : s.report.cycles = loadWords count + 5 * count + 5
  flushes : s.report.flushes = count - 1
  stalls : s.report.stalls = []

/-- Sequential execution comes to the exit behind the loop. -/
theorem at_exit {c : Config} (hValid : c.Valid) (hStart : c.startPc = 0) {first : List Nat}
    {count : Nat} (hLoads : LoadsInto first 1 count) (hPos : 1 ≤ count)
    (hCount : count < 0x100000000) (hFirst : first.length ≤ 2) (data : List (Int × List Int)) :
    ∃ b, (c.machine (first ++ loopWords).toArray data).Leads (first.length + 2 + 3 * count) b ∧
      At first c.precision b 5 0 count (count - 1) := by
  obtain ⟨a, hLoaded, hTop⟩ := at_top hLoads (a := c.machine (first ++ loopWords).toArray data)
    rfl hStart (factors_exact c) rfl rfl
  obtain ⟨turns, rfl⟩ : ∃ turns, count = turns + 1 := ⟨count - 1, by omega⟩
  obtain ⟨b, hTurns, hEnd⟩ := hTop.all_turns hValid.accBits_pos hFirst (Nat.lt_of_succ_lt hCount)
  refine ⟨b, hLoaded.trans hTurns, ?_⟩
  rwa [Nat.zero_add, Nat.zero_add] at hEnd

/-- The loop is exact for every count, whatever the memory and the units are like. Within as many
cycles as it takes at full speed, it exits and passes. Its sum is that of all products as far as
accumulator and register have room for it. -/
theorem run_exact {c : Config} (hValid : c.Valid) (hStart : c.startPc = 0) {count : Nat}
    (hPos : 1 ≤ count) (hCount : count < 0x100000000) (data : List (Int × List Int))
    {maxCycles : Option Int}
    (hBudget : ((loadWords count + 5 * count + 5 : Nat) : Int) ≤ maxCycles.getD c.maxCycles) :
    ∃ p, program count = .ok p ∧
      ∃ s, (Simulator.loaded c p.words.toArray data).run maxCycles = (.ok (), s) ∧
        Finished c count s := by
  obtain ⟨p, first, hProgram, hWords, hLoads, hLength⟩ := program_words hCount
  have hFirst : first.length ≤ 2 := by
    rw [hLength]
    unfold loadWords
    split <;> decide
  obtain ⟨b, hLeads, hEnd⟩ := at_exit hValid hStart hLoads hPos hCount hFirst data
  obtain ⟨hKind, hWrites⟩ : b.instruction.kind = .system ∧ b.instruction.writesRd = false := by
    rw [hEnd.instruction (w := 0x73) rfl]
    decide +kernel
  have hEnds : ending b.instruction.kind ≠ none := by
    rw [hKind]
    nofun
  have hRegisters : b.next.registers = b.registers :=
    Machine.next_registers (by rw [hKind]; nofun) hWrites
  have hSize : (first ++ loopWords).toArray.size < 0x40000000 := by
    rw [List.size_toArray, List.length_append]
    exact Nat.lt_of_le_of_lt (Nat.add_le_add_right hFirst _) (by decide)
  have hEnough : ((first.length + 2 + 3 * count + 5 +
      2 * (Machine.after (first.length + 2 + 3 * count)
        (c.machine (first ++ loopWords).toArray data)).flushes : Nat) : Int) ≤
      maxCycles.getD c.maxCycles := by
    rw [hLeads.after, hEnd.flushes, hLength]
    omega
  obtain ⟨s, hRun, hExited, hPassed, hRetired, hSame, hFlushes, hCycle, hStalls⟩ :=
    Simulator.run_brief hValid (hLeads.brief hEnds (by rw [hKind]; rfl)) hSize hLeads.runs
      (hLeads.after.symm ▸ hKind) hEnough
  rw [Machine.after_succ, hLeads.after, hRegisters] at hSame
  rw [hLeads.after, hEnd.flushes] at hFlushes hCycle
  refine ⟨p, hProgram, s, by rw [hWords]; exact hRun, hExited, hPassed, ?_, ?_, ?_, ?_, hFlushes,
    hStalls⟩
  · rw [hSame, hEnd.counter]
    exact isWord_zero
  · rw [hSame]
    exact hEnd.sum
  · exact hRetired.trans (by omega)
  · exact hCycle.trans (by omega)

/-- The sum of three thousand products, which an accumulator of eight bits has no room for. -/
theorem run_exact_of_clamped_sum :
    ∃ p, program 3000 = .ok p ∧
      ∃ s, (Simulator.loaded { operandType := .int8 } p.words.toArray []).run none = (.ok (), s) ∧
        s.report.passed = true ∧ s.pipeline.registers.read 4 = 127 ∧ s.report.cycles = 15007 := by
  have hValid : Config.Valid { operandType := .int8 } := by
    constructor <;> decide
  have hBudget : ((loadWords 3000 + 5 * 3000 + 5 : Nat) : Int) ≤
      (none : Option Int).getD (Config.maxCycles { operandType := .int8 }) := by
    decide
  obtain ⟨p, hProgram, s, hRun, hFinished⟩ :=
    run_exact hValid rfl (by decide) (by decide) [] hBudget
  have hSum : sumOf (Config.precision { operandType := .int8 }) 3000 = 127 := by
    decide
  exact ⟨p, hProgram, s, hRun, hFinished.passed, hFinished.sum.trans hSum, hFinished.cycles⟩

end MacLoop

end AccelPipe

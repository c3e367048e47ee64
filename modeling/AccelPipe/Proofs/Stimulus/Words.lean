import AccelPipe.Proofs.Assembly.Lines
import AccelPipe.Proofs.Assembly.Written
import AccelPipe.Proofs.Instruction.Composed
import AccelPipe.Proofs.Reference.Onward
import AccelPipe.Stimulus.Line

/-! The words of generated lines. Every form of line is encoded as one word, whose instruction goes
where the line says. -/
namespace AccelPipe

open Assembly Instruction

/-- The mnemonics that are written with two registers and an immediate. -/
def Mnemonic.takesImmediate : Mnemonic → Bool
  | .addi | .slti | .sltiu | .xori | .ori | .andi | .reluB => true
  | _ => false

/-- The mnemonics that are written with a register to write and a memory operand to read. -/
def Mnemonic.takesMemory : Mnemonic → Bool
  | .lw | .conv2dLd | .firLd => true
  | _ => false

/-- The mnemonics that are written with two registers. -/
def Mnemonic.takesTwo : Mnemonic → Bool
  | .relu | .fir => true
  | _ => false

namespace Stimulus

/-- A line in a place of a program that goes on to a later line, and not past the last one. -/
inductive Line.Onward (last place : Nat) : Line → Prop where
  | constant {r : Nat} {n : Int} (hReg : r < 32) (hLow : -0x800 ≤ n) (hHigh : n ≤ 0x7ff) :
    Onward last place ⟨"li", [.register r, .number n]⟩
  | registers {m : Mnemonic} {rd a b : Nat} (hFormat : m.format = .r) (hLegal : m ≠ .illegal)
    (hRd : rd < 32) (hA : a < 32) (hB : b < 32) :
    Onward last place ⟨m.name, [.register rd, .register a, .register b]⟩
  | sliding {m : Mnemonic} {rd : Nat} (hKind : m.kind = .pool) (hRd : rd < 32) :
    Onward last place ⟨m.name ++ ".n", [.register rd]⟩
  | immediate {m : Mnemonic} {rd a : Nat} {n : Int} (hForm : m.takesImmediate = true)
    (hRd : rd < 32) (hA : a < 32) (hLow : -0x800 ≤ n) (hHigh : n ≤ 0x7ff) :
    Onward last place ⟨m.name, [.register rd, .register a, .number n]⟩
  | shift {m : Mnemonic} {rd a n : Nat} (hForm : m.shifts = true) (hRd : rd < 32) (hA : a < 32)
    (hAmount : n < 32) :
    Onward last place ⟨m.name, [.register rd, .register a, .number n]⟩
  | upper {rd n : Nat} (hRd : rd < 32) (hSmall : n < 0x100000) :
    Onward last place ⟨"auipc", [.register rd, .number n]⟩
  | memory {m : Mnemonic} {rd base : Nat} {n : Int} (hForm : m.takesMemory = true) (hRd : rd < 32)
    (hBase : base < 32) (hLow : -0x800 ≤ n) (hHigh : n ≤ 0x7ff) :
    Onward last place ⟨m.name, [.register rd, .memory n base]⟩
  | store {a base : Nat} {n : Int} (hA : a < 32) (hBase : base < 32) (hLow : -0x800 ≤ n)
    (hHigh : n ≤ 0x7ff) :
    Onward last place ⟨"sw", [.register a, .memory n base]⟩
  | two {m : Mnemonic} {rd a : Nat} (hForm : m.takesTwo = true) (hRd : rd < 32) (hA : a < 32) :
    Onward last place ⟨m.name, [.register rd, .register a]⟩
  | clear {rd : Nat} (hRd : rd < 32) : Onward last place ⟨"fir.clr", [.register rd]⟩
  | branch {m : Mnemonic} {a b steps : Nat} (hFormat : m.format = .b) (hA : a < 32) (hB : b < 32)
    (hSome : 0 < steps) (hFew : steps ≤ 4) (hWithin : place + steps ≤ last) :
    Onward last place ⟨m.name, [.register a, .register b, .number (4 * steps : Nat)]⟩
  | jump {rd steps : Nat} (hRd : rd < 32) (hSome : 0 < steps) (hFew : steps ≤ 4)
    (hWithin : place + steps ≤ last) :
    Onward last place ⟨"jal", [.register rd, .number (4 * steps : Nat)]⟩
  | absolute {rd target : Nat} (hRd : rd < 32) (hLater : place < target) (hWithin : target ≤ last)
    (hSmall : 4 * target ≤ 0x7ff) :
    Onward last place ⟨"jalr", [.register rd, .memory (4 * target : Nat) 0]⟩

/-- A line without the blanks in front of it. -/
def Line.statement (l : Line) : List Char :=
  statementText l.name.toList ((l.parts.map Part.text).map String.toList)

/-- All parts of a line are plain tokens. -/
theorem plain_parts (parts : List Part) :
    ∀ token ∈ (parts.map Part.text).map String.toList, Plain token := by
  intro token hIn
  obtain ⟨text, hText, rfl⟩ := List.mem_map.mp hIn
  obtain ⟨p, -, rfl⟩ := List.mem_map.mp hText
  cases p with
  | register r => exact plain_registerName r
  | number n => exact plain_decimal n
  | memory offset base => exact plain_memoryText offset base

/-- A word in a place of a program that goes on to a later word. -/
structure Passes (last place w : Nat) : Prop where
  small : w < 0x100000000
  onward : (decode w).Onward last place
  ordinary : (decode w).kind ≠ .system

/-- A line stands for a word that goes on to a later one, wherever the line stands. -/
structure Line.Becomes (last place : Nat) (l : Line) (w : Nat) : Prop extends
    Passes last place w where
  stands : Stands l.statement w

section Words

variable {last place : Nat} {m : Mnemonic} {l : Line} {word : Except Refusal Nat} {w : Nat}

/-- An instruction that is not a branch goes on to the next word. -/
theorem onward_of_plain (h : Composes word m w) (hLegal : m ≠ .illegal)
    (hPlain : m.kind ≠ .branch) : (decode w).Onward last place where
  legal := by
    rw [h.kind]
    cases m <;> first | exact absurd rfl hLegal | nofun
  near hJumps := by
    rw [h.mnemonic] at hJumps
    cases m <;> first
      | exact absurd rfl hPlain
      | rcases hJumps with hBranch | hJal <;> contradiction
  far hJumps := by
    rw [h.mnemonic] at hJumps
    rw [hJumps] at hPlain
    exact absurd rfl hPlain

/-- A line stands for a word if its instruction is emitted so without labels. -/
theorem stands_line (hName : l.name = m.name ∨ l.name = m.name ++ ".n")
    (hEmit : ∀ c : Context, c.labels = [] → c.Has (l.parts.map Part.text) →
      emitInstruction c l.name = .ok [w]) : Stands l.statement w :=
  stands_instruction (namesInstruction_of_mnemonic hName) (plain_parts l.parts) fun _ =>
    hEmit _ rfl rfl

/-- A line becomes the word that its fields compose. -/
theorem becomes_of_composes (hName : l.name = m.name ∨ l.name = m.name ++ ".n")
    (h : Composes word m w) (hSystem : m.kind ≠ .system) (hOnward : (decode w).Onward last place)
    (hEmit : ∀ c : Context, c.labels = [] → c.Has (l.parts.map Part.text) →
      emitInstruction c l.name = one word) : l.Becomes last place w where
  stands := stands_line hName fun c hLabels hOps => (hEmit c hLabels hOps).trans (one_ok h.made)
  small := h.small
  onward := hOnward
  ordinary := by
    rw [h.kind]
    exact hSystem

/-- A line that is not a branch. -/
theorem becomes_of_plain (hName : l.name = m.name ∨ l.name = m.name ++ ".n")
    (h : ∃ w, Composes word m w) (hLegal : m ≠ .illegal) (hSystem : m.kind ≠ .system)
    (hPlain : m.kind ≠ .branch)
    (hEmit : ∀ c : Context, c.labels = [] → c.Has (l.parts.map Part.text) →
      emitInstruction c l.name = one word) : ∃ w, l.Becomes last place w := by
  obtain ⟨w, hWord⟩ := h
  exact ⟨w, becomes_of_composes hName hWord hSystem (onward_of_plain hWord hLegal hPlain) hEmit⟩

/-- The mnemonics with room for an immediate that go on to the next word. -/
structure PlainImmediate (m : Mnemonic) : Prop where
  format : m.format = .i
  shifts : m.shifts = false
  system : m.kind ≠ .system
  branch : m.kind ≠ .branch

theorem plainImmediate_of_takes
    (h : m.takesImmediate = true ∨ m.takesMemory = true ∨ m.takesTwo = true) :
    PlainImmediate m := by
  cases m <;> first
    | rcases h with h | h | h <;> cases h; done
    | exact ⟨rfl, rfl, nofun, nofun⟩

theorem PlainImmediate.legal (h : PlainImmediate m) : m ≠ .illegal := by
  rintro rfl
  cases h.format

/-- A line with two registers and an immediate, each of which it may leave out. -/
theorem becomes_of_i {rd rs1 : Nat} {n : Int} (h : PlainImmediate m) (hName : l.name = m.name)
    (hRd : rd < 32) (hRs1 : rs1 < 32) (hLow : -0x800 ≤ n) (hHigh : n ≤ 0x7ff)
    (hEmit : ∀ c : Context, c.labels = [] → c.Has (l.parts.map Part.text) →
      emitInstruction c l.name = one (Encode.i m.opcode rd m.funct3 rs1 n)) :
    ∃ w, l.Becomes last place w := by
  obtain ⟨w, hWord, -⟩ := composes_i h.format h.shifts h.system hRd hRs1 hLow hHigh
  exact becomes_of_plain (.inl hName) ⟨w, hWord⟩ h.legal h.system h.branch hEmit

section Emits

variable {c : Context} {rd a b base : Nat} {n : Int}

/-- An operation with three registers is emitted in the register format. -/
theorem emit_three (hFormat : m.format = .r) (hLegal : m ≠ .illegal) (hRd : rd < 32) (hA : a < 32)
    (hB : b < 32) (hOps : c.Has [registerName rd, registerName a, registerName b]) :
    emitInstruction c m.name = one (Encode.r m.opcode rd m.funct3 a b m.funct7) := by
  have hShape : emitMnemonic c m = (do
      let rd ← c.reg 0
      let rs1 ← c.reg 1
      let rs2 ← c.reg 2
      one (Encode.r m.opcode rd m.funct3 rs1 rs2 m.funct7)) := by
    cases m <;> first | cases hFormat; done | exact absurd rfl hLegal | rfl
  rw [emitInstruction_name c hLegal, hShape, reg_ok (hOps.op rfl) hRd, ok_bind,
    reg_ok (hOps.op rfl) hA, ok_bind, reg_ok (hOps.op rfl) hB, ok_bind]

/-- One with a number is emitted in the immediate format. -/
theorem emit_value (hForm : m.takesImmediate = true) (hLabels : c.labels = []) (hRd : rd < 32)
    (hA : a < 32) (hWritable : Text.isWritable n = true)
    (hOps : c.Has [registerName rd, registerName a, Text.decimal n]) :
    emitInstruction c m.name = one (Encode.i m.opcode rd m.funct3 a n) := by
  have hLegal : m ≠ .illegal := by
    rintro rfl
    cases hForm
  have hShape : emitMnemonic c m = (do
      let rd ← c.reg 0
      let rs1 ← c.reg 1
      let imm ← c.val 2
      emitI m rd rs1 imm) := by
    cases m <;> first | cases hForm; done | rfl
  rw [emitInstruction_name c hLegal, hShape, reg_ok (hOps.op rfl) hRd, ok_bind,
    reg_ok (hOps.op rfl) hA, ok_bind, val_ok hLabels (hOps.op rfl) hWritable, ok_bind]
  rfl

/-- The amount of a shift is emitted in place of the second register. -/
theorem emit_amount {n : Nat} (hForm : m.shifts = true) (hRd : rd < 32) (hA : a < 32) (hN : n < 32)
    (hOps : c.Has [registerName rd, registerName a, Text.decimal n]) :
    emitInstruction c m.name = one (Encode.r m.opcode rd m.funct3 a n m.funct7) := by
  have hLegal : m ≠ .illegal := by
    rintro rfl
    cases hForm
  have hShape : emitMnemonic c m = (do
      let amount ← c.num 2
      if 0 ≤ amount ∧ amount ≤ 31 then
        let rd ← c.reg 0
        let rs1 ← c.reg 1
        one (Encode.r m.opcode rd m.funct3 rs1 amount m.funct7)
      else throw (.refused (.shiftAmount amount))) := by
    cases m <;> first | cases hForm; done | rfl
  rw [emitInstruction_name c hLegal, hShape, num_ok (hOps.op rfl) (Text.writable_of_lt (by omega)),
    ok_bind, if_pos ⟨by omega, by omega⟩, reg_ok (hOps.op rfl) hRd, ok_bind,
    reg_ok (hOps.op rfl) hA, ok_bind]

/-- An upper immediate is emitted as it is. -/
theorem emit_upper {n : Nat} (hLabels : c.labels = []) (hRd : rd < 32) (hN : n < 0x100000)
    (hOps : c.Has [registerName rd, Text.decimal n]) :
    emitInstruction c Mnemonic.auipc.name = one (Encode.u Mnemonic.auipc.opcode rd n) := by
  have hWritable : Text.isWritable (n : Int) = true := Text.writable_of_lt (by omega)
  rw [emitInstruction_name c (m := .auipc) nofun]
  unfold emitMnemonic
  dsimp only
  rw [val_ok hLabels (hOps.op rfl) hWritable, ok_bind, if_pos ⟨by omega, by omega⟩,
    reg_ok (hOps.op rfl) hRd, ok_bind]

/-- A load is emitted with its base and its offset, -/
theorem emit_load (hLegal : m ≠ .illegal) (hRd : rd < 32) (hBase : base < 32)
    (hWritable : Text.isWritable n = true)
    (hShape : emitMnemonic c m = do
      let (imm, rs1) ← c.mem 1
      let rd ← c.reg 0
      emitI m rd rs1 imm)
    (hOps : c.Has [registerName rd, memoryText n base]) :
    emitInstruction c m.name = one (Encode.i m.opcode rd m.funct3 base n) := by
  rw [emitInstruction_name c hLegal, hShape, mem_ok (hOps.op rfl) hWritable hBase, ok_bind]
  dsimp only
  rw [reg_ok (hOps.op rfl) hRd, ok_bind]
  rfl

/-- and so is a store. -/
theorem emit_store (hA : a < 32) (hBase : base < 32) (hWritable : Text.isWritable n = true)
    (hOps : c.Has [registerName a, memoryText n base]) :
    emitInstruction c Mnemonic.sw.name =
      one (Encode.s Mnemonic.sw.opcode Mnemonic.sw.funct3 base a n) := by
  rw [emitInstruction_name c (m := .sw) nofun]
  unfold emitMnemonic
  dsimp only
  rw [mem_ok (hOps.op rfl) hWritable hBase, ok_bind]
  dsimp only
  rw [reg_ok (hOps.op rfl) hA, ok_bind]

/-- An operation with one source has a zero for the other. -/
theorem emit_pair (hForm : m.takesTwo = true) (hRd : rd < 32) (hA : a < 32)
    (hOps : c.Has [registerName rd, registerName a]) :
    emitInstruction c m.name = one (Encode.i m.opcode rd m.funct3 a 0) := by
  have hLegal : m ≠ .illegal := by
    rintro rfl
    cases hForm
  have hShape : emitMnemonic c m = (do
      let rd ← c.reg 0
      let rs1 ← c.reg 1
      emitI m rd rs1 0) := by
    cases m <;> first | cases hForm; done | rfl
  rw [emitInstruction_name c hLegal, hShape, reg_ok (hOps.op rfl) hRd, ok_bind,
    reg_ok (hOps.op rfl) hA, ok_bind]
  rfl

/-- Clearing a filter has neither. -/
theorem emit_clear (hRd : rd < 32) (hOps : c.Has [registerName rd]) :
    emitInstruction c Mnemonic.firClr.name =
      one (Encode.i Mnemonic.firClr.opcode rd Mnemonic.firClr.funct3 (0 : Nat) 0) := by
  have hSome : c.ops.isEmpty = false := by
    rw [show c.ops = _ from hOps]
    rfl
  rw [emitInstruction_name c (m := .firClr) nofun]
  unfold emitMnemonic
  dsimp only
  rw [hSome, if_neg Bool.false_ne_true, reg_ok (hOps.op rfl) hRd, ok_bind]
  rfl

/-- A window that slides is marked in the variant bits. -/
theorem emit_slide (hKind : m.kind = .pool) (hRd : rd < 32) (hOps : c.Has [registerName rd]) :
    emitInstruction c (m.name ++ ".n") =
      one (Encode.r m.opcode rd m.funct3 (0 : Nat) (0 : Nat) (1 : Nat)) := by
  rw [emitInstruction_sliding c (slidingBase?_sliding hKind), reg_ok (hOps.op rfl) hRd, ok_bind]
  rfl

/-- A number is a distance. -/
theorem distance_decimal (hLabels : c.labels = []) {index : Nat}
    (hOp : c.ops[index]? = some (Text.decimal n).toList) (hWritable : Text.isWritable n = true) :
    c.dist index = .ok n := by
  refine examine_ok hOp ?_
  rw [hLabels]
  exact distance_ok (plain_decimal n) (Text.readInteger_decimal hWritable) c.pc

/-- A branch is emitted with its distance, -/
theorem emit_compare (hFormat : m.format = .b) (hLabels : c.labels = []) (hA : a < 32) (hB : b < 32)
    (hWritable : Text.isWritable n = true)
    (hOps : c.Has [registerName a, registerName b, Text.decimal n]) :
    emitInstruction c m.name = one (Encode.b m.funct3 a b n) := by
  have hLegal : m ≠ .illegal := by
    rintro rfl
    cases hFormat
  have hShape : emitMnemonic c m = (do
      let rs1 ← c.reg 0
      let rs2 ← c.reg 1
      let offset ← c.dist 2
      one (Encode.b m.funct3 rs1 rs2 offset)) := by
    cases m <;> first | cases hFormat; done | rfl
  rw [emitInstruction_name c hLegal, hShape, reg_ok (hOps.op rfl) hA, ok_bind,
    reg_ok (hOps.op rfl) hB, ok_bind, distance_decimal hLabels (hOps.op rfl) hWritable, ok_bind]

/-- and so is a jump. -/
theorem emit_jump (hLabels : c.labels = []) (hRd : rd < 32) (hWritable : Text.isWritable n = true)
    (hOps : c.Has [registerName rd, Text.decimal n]) :
    emitInstruction c Mnemonic.jal.name = one (Encode.j rd n) := by
  have hTwo : c.ops.length = 2 := congrArg List.length hOps
  rw [emitInstruction_name c (m := .jal) nofun]
  unfold emitMnemonic
  dsimp only
  rw [if_neg (by omega), reg_ok (hOps.op rfl) hRd, ok_bind,
    distance_decimal hLabels (hOps.op rfl) hWritable, ok_bind]

end Emits

/-- A constant is loaded by an addition to zero. -/
theorem stands_constant {r : Nat} {n : Int} (hReg : r < 32) (hLow : -0x800 ≤ n) (hHigh : n ≤ 0x7ff)
    (hMade : Encode.i Mnemonic.addi.opcode r Mnemonic.addi.funct3 (0 : Nat) n = .ok w) :
    Stands (Line.statement ⟨"li", [.register r, .number n]⟩) w := by
  have hWritable : Text.isWritable n = true := Text.writable_of_lt (by omega)
  have hName : Plain "li".toList := ⟨nofun, List.all_eq_true.mp (by decide)⟩
  have hOps := plain_parts [.register r, .number n]
  have hRead : Text.readInteger (Text.trim (Text.decimal n).toList) = .ok n := by
    rw [(plain_decimal n).trim]
    exact Text.readInteger_decimal hWritable
  have hLower : Text.lower "li".toList = "li".toList := by decide
  change Stands (statementText "li".toList _) w
  refine stands_statementText hName hOps hLower (show isPlacement "li".toList = false from rfl) ?_
    fun address => ?_
  · unfold statementSize
    rw [if_neg (by decide), if_pos rfl, operands_intercalate hOps]
    exact (loadSize_of_readInteger _ hRead).trans (if_pos ⟨hLow, hHigh⟩)
  · rw [if_neg (by decide), String.ofList_toList]
    unfold emitInstruction
    have hHas : (⟨[], address, 4, ([Part.register r, .number n].map Part.text).map String.toList⟩ :
        Context).Has [registerName r, Text.decimal n] := rfl
    rw [reg_ok (hHas.op rfl) hReg, ok_bind, val_ok rfl (hHas.op rfl) hWritable, ok_bind, if_pos rfl]
    exact one_ok hMade

/-- A branch, and a jump by a distance, go on to a later word if they lead to one. -/
theorem onward_of_near (h : Composes word m w) (hLegal : m.kind ≠ .illegal) (hNear : m ≠ .jalr)
    (hAhead : Ahead last place (4 * place + (decode w).imm)) : (decode w).Onward last place where
  legal := by
    rw [h.kind]
    exact hLegal
  near _ := hAhead
  far hJumps := absurd (h.mnemonic.symm.trans hJumps) hNear

/-- A branch over a few lines becomes a word that goes forward. -/
theorem becomes_branch {a b steps : Nat} (hFormat : m.format = .b) (hA : a < 32) (hB : b < 32)
    (hSome : 0 < steps) (hFew : steps ≤ 4) (hWithin : place + steps ≤ last) :
    ∃ w, Line.Becomes last place
      ⟨m.name, [.register a, .register b, .number (4 * steps : Nat)]⟩ w := by
  obtain ⟨w, hWord, hImm⟩ := composes_b hFormat hA hB (n := 4 * steps) (by omega) (by omega)
  have hKind : m.kind = .branch ∧ m ≠ .jalr := by
    cases m <;> first | cases hFormat; done | exact ⟨rfl, nofun⟩
  refine ⟨w, becomes_of_composes (.inl rfl) hWord (by rw [hKind.1]; nofun)
    (onward_of_near hWord (by rw [hKind.1]; nofun) hKind.2 ?_) fun c hLabels hOps =>
      emit_compare hFormat hLabels hA hB (Text.writable_of_lt (by omega)) hOps⟩
  rw [hImm]
  exact ⟨by omega, by omega, by omega⟩

/-- So does a jump. -/
theorem becomes_jump {rd steps : Nat} (hRd : rd < 32) (hSome : 0 < steps) (hFew : steps ≤ 4)
    (hWithin : place + steps ≤ last) :
    ∃ w, Line.Becomes last place ⟨"jal", [.register rd, .number (4 * steps : Nat)]⟩ w := by
  obtain ⟨w, hWord, hImm⟩ := composes_j hRd (n := 4 * steps) (by omega) (by omega)
  refine ⟨w, becomes_of_composes (m := .jal) (.inl rfl) hWord nofun
    (onward_of_near hWord nofun nofun ?_) fun c hLabels hOps =>
      emit_jump hLabels hRd (Text.writable_of_lt (by omega)) hOps⟩
  rw [hImm]
  exact ⟨by omega, by omega, by omega⟩

/-- A jump to an address counts from zero. -/
theorem becomes_absolute {rd target : Nat} (hRd : rd < 32) (hLater : place < target)
    (hWithin : target ≤ last) (hSmall : 4 * target ≤ 0x7ff) :
    ∃ w, Line.Becomes last place ⟨"jalr", [.register rd, .memory (4 * target : Nat) 0]⟩ w := by
  obtain ⟨w, hWord, hBase, hImm⟩ := composes_i (m := .jalr) rfl rfl nofun hRd
    (Nat.zero_lt_succ 31) (show -0x800 ≤ ((4 * target : Nat) : Int) by omega) (by omega)
  have hAhead : Ahead last place (decode w).imm := by
    rw [hImm]
    exact ⟨by omega, by omega, by omega⟩
  refine ⟨w, becomes_of_composes (m := .jalr) (.inl rfl) hWord nofun
    ⟨?_, ?_, fun _ => ⟨hBase, hAhead⟩⟩ fun c _ hOps => ?_⟩
  · rw [hWord.kind]
    nofun
  · intro hJumps
    rw [hWord.mnemonic] at hJumps
    rcases hJumps with hBranch | hJal
    · cases hBranch
    · cases hJal
  · refine emit_load (m := .jalr) nofun hRd (Nat.zero_lt_succ 31)
      (Text.writable_of_lt (by omega)) ?_ hOps
    have hTwo : c.ops.length = 2 := congrArg List.length hOps
    unfold emitMnemonic
    dsimp only
    rw [if_neg (by omega), if_pos hTwo]

/-- Every such line is one word, which goes on to a later one. -/
theorem Line.Onward.becomes (h : l.Onward last place) : ∃ w, l.Becomes last place w := by
  cases h with
  | constant hReg hLow hHigh =>
      obtain ⟨w, hWord, -⟩ :=
        composes_i (m := .addi) rfl rfl nofun hReg (show 0 < 32 by decide) hLow hHigh
      refine ⟨w, ⟨hWord.small, onward_of_plain hWord nofun nofun, ?_⟩,
        stands_constant hReg hLow hHigh hWord.made⟩
      rw [hWord.kind]
      nofun
  | @registers m rd a b hFormat hLegal hRd hA hB =>
      have hKind : m.kind ≠ .system ∧ m.kind ≠ .branch := by
        cases m <;> first | cases hFormat; done | exact absurd rfl hLegal | exact ⟨nofun, nofun⟩
      exact becomes_of_plain (.inl rfl) (composes_r (.inl hFormat) hLegal hRd hA hB (.inl rfl))
        hLegal hKind.1 hKind.2 fun c _ hOps => emit_three hFormat hLegal hRd hA hB hOps
  | @sliding m rd hKind hRd =>
      have hFormat := Mnemonic.format_of_pool hKind
      exact becomes_of_plain (.inr rfl)
        (composes_r (.inl hFormat.1) hFormat.2 hRd (by decide) (by decide) (.inr ⟨hKind, rfl⟩))
        hFormat.2 (by rw [hKind]; nofun) (by rw [hKind]; nofun)
        fun c _ hOps => emit_slide hKind hRd hOps
  | immediate hForm hRd hA hLow hHigh =>
      exact becomes_of_i (plainImmediate_of_takes (.inl hForm)) rfl hRd hA hLow hHigh
        fun c hLabels hOps => emit_value hForm hLabels hRd hA (Text.writable_of_lt (by omega)) hOps
  | @shift m rd a n hForm hRd hA hAmount =>
      have hShape : m ≠ .illegal ∧ m.kind ≠ .system ∧ m.kind ≠ .branch := by
        cases m <;> first | cases hForm; done | exact ⟨nofun, nofun, nofun⟩
      exact becomes_of_plain (.inl rfl)
        (composes_r (.inr hForm) hShape.1 hRd hA hAmount (.inl rfl)) hShape.1 hShape.2.1 hShape.2.2
        fun c _ hOps => emit_amount hForm hRd hA hAmount hOps
  | upper hRd hSmall =>
      exact becomes_of_plain (m := .auipc) (.inl rfl) (composes_u rfl hRd hSmall) nofun nofun nofun
        fun c hLabels hOps => emit_upper hLabels hRd hSmall hOps
  | @memory m rd base n hForm hRd hBase hLow hHigh =>
      have hPlain := plainImmediate_of_takes (.inr (.inl hForm))
      refine becomes_of_i hPlain rfl hRd hBase hLow hHigh fun c _ hOps =>
        emit_load hPlain.legal hRd hBase (Text.writable_of_lt (by omega)) ?_ hOps
      cases m <;> first | cases hForm; done | rfl
  | store hA hBase hLow hHigh =>
      exact becomes_of_plain (m := .sw) (.inl rfl) (composes_s hBase hA hLow hHigh) nofun nofun nofun
        fun c _ hOps => emit_store hA hBase (Text.writable_of_lt (by omega)) hOps
  | two hForm hRd hA =>
      exact becomes_of_i (plainImmediate_of_takes (.inr (.inr hForm))) rfl hRd hA
        (show (-0x800 : Int) ≤ 0 by decide) (show (0 : Int) ≤ 0x7ff by decide)
        fun c _ hOps => emit_pair hForm hRd hA hOps
  | clear hRd =>
      exact becomes_of_i (m := .firClr) ⟨rfl, rfl, nofun, nofun⟩ rfl hRd (Nat.zero_lt_succ 31)
        (show (-0x800 : Int) ≤ 0 by decide) (show (0 : Int) ≤ 0x7ff by decide)
        fun c _ hOps => emit_clear hRd hOps
  | branch hFormat hA hB hSome hFew hWithin =>
      exact becomes_branch hFormat hA hB hSome hFew hWithin
  | jump hRd hSome hFew hWithin => exact becomes_jump hRd hSome hFew hWithin
  | absolute hRd hLater hWithin hSmall => exact becomes_absolute hRd hLater hWithin hSmall

end Words

end Stimulus

end AccelPipe

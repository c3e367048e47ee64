import AccelPipe.Assembly.Layout
import AccelPipe.Instruction.Encode

/-! Statements to words. Operands are examined in a fixed order for every statement, so that of
several faults always the same one is reported. -/
namespace AccelPipe

namespace Mnemonic

def all : List Mnemonic :=
  [add, sub, sll, slt, sltu, xor, srl, sra, or, and, addi, slti, sltiu, xori, ori, andi,
   slli, srli, srai, lui, auipc, lw, sw, beq, bne, blt, bge, bltu, bgeu, jal, jalr,
   ecall, ebreak, mac, macW, maca, macz, relu, reluB, conv2d, conv2dLd,
   fir, firLd, firClr, pool, poolMax, poolAvg]

/-- The mnemonic of a legal instruction by its name. -/
def ofName? (name : String) : Option Mnemonic := all.find? (·.name == name)

def opcode : Mnemonic → Nat
  | add | sub | sll | slt | sltu | xor | srl | sra | or | and => Opcode.op
  | addi | slti | sltiu | xori | ori | andi | slli | srli | srai => Opcode.opImm
  | lui => Opcode.lui
  | auipc => Opcode.auipc
  | lw => Opcode.load
  | sw => Opcode.store
  | beq | bne | blt | bge | bltu | bgeu => Opcode.branch
  | jal => Opcode.jal
  | jalr => Opcode.jalr
  | ecall | ebreak => Opcode.system
  | mac | macW | maca | macz => Opcode.mac
  | relu | reluB => Opcode.relu
  | conv2d | conv2dLd => Opcode.conv2d
  | fir | firLd | firClr => Opcode.fir
  | pool | poolMax | poolAvg => Opcode.pool
  | illegal => 0

def funct3 : Mnemonic → Nat
  | add | sub | addi | beq | jalr | mac | relu | conv2d | fir | pool => 0
  | sll | slli | bne | macW | reluB | conv2dLd | firLd | poolMax => 1
  | slt | slti | lw | sw | maca | firClr | poolAvg => 2
  | sltu | sltiu | macz => 3
  | xor | xori | blt => 4
  | srl | sra | srli | srai | bge => 5
  | or | ori | bltu => 6
  | and | andi | bgeu => 7
  | lui | auipc | jal | ecall | ebreak | illegal => 0

def funct7 : Mnemonic → Nat
  | sub | sra | srai => 0x20
  | _ => 0

end Mnemonic

namespace Assembly

/-- What the operands of a statement are resolved against. -/
structure Context where
  labels : Labels
  pc : Int
  size : Int
  ops : List Token

namespace Context

variable (c : Context)

def operand (index : Nat) : Except StatementFault Token :=
  match c.ops[index]? with
  | some token => .ok token
  | none => .error .missingOperand

def examine {α : Type} (read : Token → Except Refusal α) (index : Nat) :
    Except StatementFault α := do
  let token ← c.operand index
  (read token).mapError .refused

def reg (index : Nat) : Except StatementFault Nat := c.examine register index

def num (index : Nat) : Except StatementFault Int := c.examine number index

def val (index : Nat) : Except StatementFault Int := c.examine (value c.labels) index

def dist (index : Nat) : Except StatementFault Int := c.examine (distance c.labels c.pc) index

def mem (index : Nat) : Except StatementFault (Int × Nat) := c.examine memory index

end Context

/-- A single word, or the encoder's refusal. -/
def one (word : Except Refusal Nat) : Except StatementFault (List Nat) :=
  (word.map fun w => [w]).mapError .refused

def emitI (m : Mnemonic) (rd rs1 : Nat) (imm : Int) : Except StatementFault (List Nat) :=
  one (Encode.i m.opcode rd m.funct3 rs1 imm)

/-- The words of a legal instruction. -/
def emitMnemonic (c : Context) (m : Mnemonic) : Except StatementFault (List Nat) :=
  match m with
  | .add | .sub | .sll | .slt | .sltu | .xor | .srl | .sra | .or | .and
  | .mac | .macW | .maca | .macz | .conv2d | .pool | .poolMax | .poolAvg => do
    let rd ← c.reg 0
    let rs1 ← c.reg 1
    let rs2 ← c.reg 2
    one (Encode.r m.opcode rd m.funct3 rs1 rs2 m.funct7)
  | .addi | .slti | .sltiu | .xori | .ori | .andi | .reluB => do
    let rd ← c.reg 0
    let rs1 ← c.reg 1
    let imm ← c.val 2
    emitI m rd rs1 imm
  | .slli | .srli | .srai => do
    let amount ← c.num 2
    if 0 ≤ amount ∧ amount ≤ 31 then
      let rd ← c.reg 0
      let rs1 ← c.reg 1
      one (Encode.r m.opcode rd m.funct3 rs1 amount m.funct7)
    else throw (.refused (.shiftAmount amount))
  | .lui | .auipc => do
    let imm ← c.val 1
    if 0 ≤ imm ∧ imm ≤ 0xfffff then
      let rd ← c.reg 0
      one (Encode.u m.opcode rd imm)
    else throw (.refused (.upperImmediate m.name imm))
  | .lw | .conv2dLd | .firLd => do
    let (imm, rs1) ← c.mem 1
    let rd ← c.reg 0
    emitI m rd rs1 imm
  | .sw => do
    let (imm, rs1) ← c.mem 1
    let rs2 ← c.reg 0
    one (Encode.s m.opcode m.funct3 rs1 rs2 imm)
  | .beq | .bne | .blt | .bge | .bltu | .bgeu => do
    let rs1 ← c.reg 0
    let rs2 ← c.reg 1
    let offset ← c.dist 2
    one (Encode.b m.funct3 rs1 rs2 offset)
  | .jal =>
    if c.ops.length = 1 then do
      let offset ← c.dist 0
      one (Encode.j 1 offset)
    else do
      let rd ← c.reg 0
      let offset ← c.dist 1
      one (Encode.j rd offset)
  | .jalr =>
    if c.ops.length = 1 then do
      let rs1 ← c.reg 0
      emitI m 1 rs1 0
    else if c.ops.length = 2 then do
      let (imm, rs1) ← c.mem 1
      let rd ← c.reg 0
      emitI m rd rs1 imm
    else do
      let rs1 ← c.reg 1
      let imm ← c.num 2
      let rd ← c.reg 0
      emitI m rd rs1 imm
  | .relu | .fir => do
    let rd ← c.reg 0
    let rs1 ← c.reg 1
    emitI m rd rs1 0
  | .firClr => do
    let rd ← if c.ops.isEmpty then pure 0 else c.reg 0
    emitI m rd 0 0
  | .ecall => .ok [Opcode.system]
  | .ebreak => .ok [0x100000 + Opcode.system]
  | .illegal => .error (.refused (.mnemonic m.name))

/-- The base of a sliding pool instruction. -/
def slidingBase? (name : String) : Option Mnemonic :=
  if name = "pool.n" then some .pool
  else if name = "pool.max.n" then some .poolMax
  else if name = "pool.avg.n" then some .poolAvg
  else none

/-- The words of a statement that is neither data nor a placement. Short forms come first; they
stand for ordinary instructions. -/
def emitInstruction (c : Context) (name : String) : Except StatementFault (List Nat) :=
  match name with
  | "nop" => emitI .addi 0 0 0
  | "halt" => emitMnemonic c .ecall
  | "li" => do
    let rd ← c.reg 0
    let v ← c.val 1
    if c.size = 4 then emitI .addi rd 0 v
    else
      let (high, low) := splitConstant v
      let upper ← one (Encode.u Opcode.lui rd high)
      let lower ← emitI .addi rd rd low
      return upper ++ lower
  | "mv" => do
    let rd ← c.reg 0
    let rs ← c.reg 1
    emitI .addi rd rs 0
  | "not" => do
    let rd ← c.reg 0
    let rs ← c.reg 1
    emitI .xori rd rs (-1)
  | "neg" => do
    let rd ← c.reg 0
    let rs ← c.reg 1
    one (Encode.r Opcode.op rd Mnemonic.sub.funct3 0 rs Mnemonic.sub.funct7)
  | "j" => do
    let offset ← c.dist 0
    one (Encode.j 0 offset)
  | "jr" => do
    let rs ← c.reg 0
    emitI .jalr 0 rs 0
  | "ret" => emitI .jalr 0 1 0
  | "beqz" => do
    let rs ← c.reg 0
    let offset ← c.dist 1
    one (Encode.b Mnemonic.beq.funct3 rs 0 offset)
  | "bnez" => do
    let rs ← c.reg 0
    let offset ← c.dist 1
    one (Encode.b Mnemonic.bne.funct3 rs 0 offset)
  | _ =>
    match slidingBase? name with
    | some m => do
      let rd ← c.reg 0
      one (Encode.r m.opcode rd m.funct3 0 0 1)
    | none =>
      match Mnemonic.ofName? name with
      | some m => emitMnemonic c m
      | none => .error (.refused (.mnemonic name))

/-- The words of data: every operand is a word of its own. -/
def emitData (labels : Labels) (ops : List Token) : Except StatementFault (List Nat) :=
  ops.mapM fun token => ((value labels token).map u32).mapError .refused

/-- The zeros in front of the target of a placement. -/
def emitPlacement (p : Placed) : Except Error (List Nat) :=
  let count := (p.size / 4).toNat
  match Room.checkRows 1 count with
  | .ok () => .ok (List.replicate count 0)
  | .error lack => .error ⟨p.line, .noRoom lack⟩

/-- The words of a placed statement, whose number its size has promised. -/
def emit (labels : Labels) (p : Placed) : Except Error (List Nat) :=
  if isPlacement p.name then emitPlacement p
  else
    let ops := operands p.rest
    let emitted :=
      if p.name = ".word".toList then emitData labels ops
      else emitInstruction ⟨labels, p.address, p.size, ops⟩ (String.ofList p.name)
    match emitted with
    | .error fault => .error ⟨p.line, .statement fault (String.ofList p.text)⟩
    | .ok words =>
      if 4 * (words.length : Int) = p.size then .ok words
      else .error ⟨p.line, .size p.size (4 * words.length)⟩

end Assembly

end AccelPipe

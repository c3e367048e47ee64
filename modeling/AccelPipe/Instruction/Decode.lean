import AccelPipe.Instruction.Basic

/-! Words to instructions. Decoding is total: a word outside the recognised table is an illegal
instruction that keeps the fields of its word. -/
namespace AccelPipe

namespace Opcode

def load : Nat := 0b0000011
def opImm : Nat := 0b0010011
def auipc : Nat := 0b0010111
def store : Nat := 0b0100011
def op : Nat := 0b0110011
def lui : Nat := 0b0110111
def branch : Nat := 0b1100011
def jalr : Nat := 0b1100111
def jal : Nat := 0b1101111
def system : Nat := 0b1110011
def fir : Nat := 0b0001011
def mac : Nat := 0b0001100
def relu : Nat := 0b0001101
def conv2d : Nat := 0b0001110
def pool : Nat := 0b0001111

end Opcode

namespace Immediate

def i (word : Int) : Int := signExtend (word / 0x100000) 12

def s (word : Int) : Int := signExtend (word / 0x2000000 * 0x20 + bitField word 7 5) 12

def b (word : Int) : Int :=
  signExtend (bitField word 31 1 * 0x1000 + bitField word 7 1 * 0x800 +
    bitField word 25 6 * 0x20 + bitField word 8 4 * 2) 13

def u (word : Int) : Int := s32 (bitField word 12 20 * 0x1000)

def j (word : Int) : Int :=
  signExtend (bitField word 31 1 * 0x100000 + bitField word 12 8 * 0x1000 +
    bitField word 20 1 * 0x800 + bitField word 21 10 * 2) 21

end Immediate

namespace Mnemonic

/-- Register arithmetic, by its two function fields. -/
def ofRegister? (funct3 funct7 : Nat) : Option Mnemonic :=
  match funct3, funct7 with
  | 0, 0x00 => some .add
  | 0, 0x20 => some .sub
  | 1, 0x00 => some .sll
  | 2, 0x00 => some .slt
  | 3, 0x00 => some .sltu
  | 4, 0x00 => some .xor
  | 5, 0x00 => some .srl
  | 5, 0x20 => some .sra
  | 6, 0x00 => some .or
  | 7, 0x00 => some .and
  | _, _ => none

/-- Arithmetic with a twelve-bit immediate. -/
def ofImmediate? (funct3 : Nat) : Option Mnemonic :=
  match funct3 with
  | 0 => some .addi
  | 2 => some .slti
  | 3 => some .sltiu
  | 4 => some .xori
  | 6 => some .ori
  | 7 => some .andi
  | _ => none

/-- Shifts by a constant. -/
def ofShift? (funct3 funct7 : Nat) : Option Mnemonic :=
  match funct3, funct7 with
  | 1, 0x00 => some .slli
  | 5, 0x00 => some .srli
  | 5, 0x20 => some .srai
  | _, _ => none

def ofBranch? (funct3 : Nat) : Option Mnemonic :=
  match funct3 with
  | 0 => some .beq
  | 1 => some .bne
  | 4 => some .blt
  | 5 => some .bge
  | 6 => some .bltu
  | 7 => some .bgeu
  | _ => none

/-- The accelerator extensions, by opcode and variant. -/
def ofExtension? (opcode funct3 : Nat) : Option Mnemonic :=
  if opcode = Opcode.mac then
    match funct3 with
    | 0 => some .mac
    | 1 => some .macW
    | 2 => some .maca
    | 3 => some .macz
    | _ => none
  else if opcode = Opcode.relu then
    match funct3 with
    | 0 => some .relu
    | 1 => some .reluB
    | _ => none
  else if opcode = Opcode.conv2d then
    match funct3 with
    | 0 => some .conv2d
    | 1 => some .conv2dLd
    | _ => none
  else if opcode = Opcode.fir then
    match funct3 with
    | 0 => some .fir
    | 1 => some .firLd
    | 2 => some .firClr
    | _ => none
  else if opcode = Opcode.pool then
    match funct3 with
    | 0 => some .pool
    | 1 => some .poolMax
    | 2 => some .poolAvg
    | _ => none
  else none

/-- Whether an extension of register format admits this function field. -/
def admits (m : Mnemonic) (funct7 : Nat) : Bool :=
  match m.kind with
  | .pool => funct7 ≤ 1
  | _ => funct7 == 0

end Mnemonic

namespace Instruction

/-- All fields of a word, under the mnemonic of illegal words. -/
def fieldsOf (word : Nat) : Instruction where
  word := word
  opcode := word % 0x80
  rd := word / 0x80 % 0x20
  funct3 := word / 0x1000 % 8
  rs1 := word / 0x8000 % 0x20
  rs2 := word / 0x100000 % 0x20
  funct7 := word / 0x2000000 % 0x80
  imm := 0
  mnemonic := .illegal

/-- Gives the fields their meaning in the format of a mnemonic: the immediate of the format is
filled in and the fields that it covers are cleared. A constant shift keeps its function field. -/
def withMnemonic (fields : Instruction) (m : Mnemonic) : Instruction :=
  match m with
  | .slli | .srli | .srai => { fields with mnemonic := m, imm := fields.rs2, rs2 := 0 }
  | .ecall => { fields with mnemonic := m, imm := 0, rs2 := 0, funct7 := 0 }
  | .ebreak => { fields with mnemonic := m, imm := 1, rs2 := 0, funct7 := 0 }
  | _ => match m.format with
    | .r => { fields with mnemonic := m }
    | .i => { fields with mnemonic := m, imm := Immediate.i fields.word, rs2 := 0, funct7 := 0 }
    | .s => { fields with mnemonic := m, imm := Immediate.s fields.word, rd := 0, funct7 := 0 }
    | .b => { fields with mnemonic := m, imm := Immediate.b fields.word, rd := 0, funct7 := 0 }
    | .u =>
      { fields with
        mnemonic := m, imm := Immediate.u fields.word
        rs1 := 0, rs2 := 0, funct3 := 0, funct7 := 0 }
    | .j =>
      { fields with
        mnemonic := m, imm := Immediate.j fields.word
        rs1 := 0, rs2 := 0, funct3 := 0, funct7 := 0 }

/-- The mnemonic that the fields of a word spell, if the word is not illegal. -/
def mnemonic? (f : Instruction) : Option Mnemonic :=
  if f.opcode = Opcode.op then Mnemonic.ofRegister? f.funct3 f.funct7
  else if f.opcode = Opcode.opImm then
    (Mnemonic.ofImmediate? f.funct3).orElse fun _ => Mnemonic.ofShift? f.funct3 f.funct7
  else if f.opcode = Opcode.lui then some .lui
  else if f.opcode = Opcode.auipc then some .auipc
  else if f.opcode = Opcode.load then if f.funct3 = 2 then some .lw else none
  else if f.opcode = Opcode.store then if f.funct3 = 2 then some .sw else none
  else if f.opcode = Opcode.branch then Mnemonic.ofBranch? f.funct3
  else if f.opcode = Opcode.jal then some .jal
  else if f.opcode = Opcode.jalr then if f.funct3 = 0 then some .jalr else none
  else if f.opcode = Opcode.system then
    if f.funct3 = 0 ∧ f.rs1 = 0 ∧ f.rd = 0 ∧ f.funct7 = 0 then
      if f.rs2 = 0 then some .ecall else if f.rs2 = 1 then some .ebreak else none
    else none
  else (Mnemonic.ofExtension? f.opcode f.funct3).filter fun m =>
    m.format == .i || m.admits f.funct7

/-- The instruction that a word stands for; only its low 32 bits count. -/
def decode (word : Int) : Instruction :=
  let fields := fieldsOf (u32 word)
  match fields.mnemonic? with
  | some m => fields.withMnemonic m
  | none => fields

end Instruction

end AccelPipe

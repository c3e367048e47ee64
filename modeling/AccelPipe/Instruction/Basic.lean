import AccelPipe.Bits

/-! Decoded instructions: the integer subset and the five accelerator extensions. A decoded
instruction keeps the fields of its word; which of them mean something depends on the mnemonic. -/
namespace AccelPipe

inductive Kind where
  | alu
  | load
  | store
  | branch
  | mac
  | relu
  | conv2d
  | fir
  | pool
  | system
  | illegal
deriving DecidableEq

namespace Kind

def name : Kind → String
  | alu => "alu"
  | load => "load"
  | store => "store"
  | branch => "branch"
  | mac => "mac"
  | relu => "relu"
  | conv2d => "conv2d"
  | fir => "fir"
  | pool => "pool"
  | system => "system"
  | illegal => "illegal"

def all : List Kind :=
  [alu, load, store, branch, mac, relu, conv2d, fir, pool, system, illegal]

def ofName? (name : String) : Option Kind := all.find? (·.name == name)

/-- The kinds that an accelerator unit executes. -/
def accelerated : Kind → Bool
  | mac | relu | conv2d | fir | pool => true
  | _ => false

end Kind

inductive Format where
  | r
  | i
  | s
  | b
  | u
  | j
deriving DecidableEq

def Format.name : Format → String
  | .r => "R"
  | .i => "I"
  | .s => "S"
  | .b => "B"
  | .u => "U"
  | .j => "J"

inductive Mnemonic where
  | add | sub | sll | slt | sltu | xor | srl | sra | or | and
  | addi | slti | sltiu | xori | ori | andi
  | slli | srli | srai
  | lui | auipc
  | lw | sw
  | beq | bne | blt | bge | bltu | bgeu
  | jal | jalr
  | ecall | ebreak
  | mac | macW | maca | macz
  | relu | reluB
  | conv2d | conv2dLd
  | fir | firLd | firClr
  | pool | poolMax | poolAvg
  | illegal
deriving DecidableEq

namespace Mnemonic

def name : Mnemonic → String
  | add => "add" | sub => "sub" | sll => "sll" | slt => "slt" | sltu => "sltu"
  | xor => "xor" | srl => "srl" | sra => "sra" | or => "or" | and => "and"
  | addi => "addi" | slti => "slti" | sltiu => "sltiu"
  | xori => "xori" | ori => "ori" | andi => "andi"
  | slli => "slli" | srli => "srli" | srai => "srai"
  | lui => "lui" | auipc => "auipc"
  | lw => "lw" | sw => "sw"
  | beq => "beq" | bne => "bne" | blt => "blt" | bge => "bge" | bltu => "bltu" | bgeu => "bgeu"
  | jal => "jal" | jalr => "jalr"
  | ecall => "ecall" | ebreak => "ebreak"
  | mac => "mac" | macW => "mac.w" | maca => "maca" | macz => "macz"
  | relu => "relu" | reluB => "relu.b"
  | conv2d => "conv2d" | conv2dLd => "conv2d.ld"
  | fir => "fir" | firLd => "fir.ld" | firClr => "fir.clr"
  | pool => "pool" | poolMax => "pool.max" | poolAvg => "pool.avg"
  | illegal => "illegal"

def kind : Mnemonic → Kind
  | add | sub | sll | slt | sltu | xor | srl | sra | or | and
  | addi | slti | sltiu | xori | ori | andi | slli | srli | srai | lui | auipc => .alu
  | lw => .load
  | sw => .store
  | beq | bne | blt | bge | bltu | bgeu | jal | jalr => .branch
  | ecall | ebreak => .system
  | mac | macW | maca | macz => .mac
  | relu | reluB => .relu
  | conv2d | conv2dLd => .conv2d
  | fir | firLd | firClr => .fir
  | pool | poolMax | poolAvg => .pool
  | illegal => .illegal

def format : Mnemonic → Format
  | add | sub | sll | slt | sltu | xor | srl | sra | or | and
  | mac | macW | maca | macz | conv2d | pool | poolMax | poolAvg | illegal => .r
  | addi | slti | sltiu | xori | ori | andi | slli | srli | srai | lw | jalr
  | ecall | ebreak | relu | reluB | conv2dLd | fir | firLd | firClr => .i
  | sw => .s
  | beq | bne | blt | bge | bltu | bgeu => .b
  | lui | auipc => .u
  | jal => .j

end Mnemonic

/-- The three register fields an instruction may read. -/
inductive Operand where
  | rs1
  | rs2
  | rd
deriving DecidableEq

def Operand.name : Operand → String
  | .rs1 => "rs1"
  | .rs2 => "rs2"
  | .rd => "rd"

/-- At most one entry for each operand. -/
structure OperandMap (α : Type) where
  rs1 : Option α := none
  rs2 : Option α := none
  rd : Option α := none
deriving DecidableEq

namespace OperandMap

variable {α : Type}

def get? (m : OperandMap α) : Operand → Option α
  | .rs1 => m.rs1
  | .rs2 => m.rs2
  | .rd => m.rd

def set (m : OperandMap α) (o : Operand) (a : α) : OperandMap α :=
  match o with
  | .rs1 => { m with rs1 := some a }
  | .rs2 => { m with rs2 := some a }
  | .rd => { m with rd := some a }

def toList (m : OperandMap α) : List (Operand × α) :=
  [Operand.rs1, .rs2, .rd].filterMap fun o => (m.get? o).map (o, ·)

@[simp] theorem get?_set_self (m : OperandMap α) (o : Operand) (a : α) :
    (m.set o a).get? o = some a := by
  cases o <;> rfl

theorem get?_set_of_ne (m : OperandMap α) {o p : Operand} (a : α) (h : p ≠ o) :
    (m.set o a).get? p = m.get? p := by
  cases o <;> cases p <;> simp_all [set, get?]

end OperandMap

/-- The values of the operands that an instruction works on. -/
abbrev Operands := OperandMap Int

/-- The value of an operand, an absent one counting as zero. -/
def OperandMap.value (ops : Operands) (o : Operand) : Int := (ops.get? o).getD 0

structure Instruction where
  word : Nat
  opcode : Nat
  funct3 : Nat
  funct7 : Nat
  rs1 : Nat
  rs2 : Nat
  rd : Nat
  imm : Int
  mnemonic : Mnemonic
deriving DecidableEq

namespace Instruction

def kind (ins : Instruction) : Kind := ins.mnemonic.kind

def format (ins : Instruction) : Format := ins.mnemonic.format

/-- A pool instruction that continues from the previous window. -/
def slides (ins : Instruction) : Bool := ins.funct7 % 2 == 1

/-- The operands that the instruction reads, with their registers. -/
def sources (ins : Instruction) : List (Operand × Nat) :=
  match ins.mnemonic with
  | .add | .sub | .sll | .slt | .sltu | .xor | .srl | .sra | .or | .and
  | .beq | .bne | .blt | .bge | .bltu | .bgeu | .sw | .maca | .macz | .conv2d =>
    [(.rs1, ins.rs1), (.rs2, ins.rs2)]
  | .addi | .slti | .sltiu | .xori | .ori | .andi | .slli | .srli | .srai
  | .jalr | .lw | .relu | .reluB | .conv2dLd | .fir | .firLd => [(.rs1, ins.rs1)]
  | .mac | .macW => [(.rd, ins.rd), (.rs1, ins.rs1), (.rs2, ins.rs2)]
  | .pool | .poolMax | .poolAvg =>
    if ins.slides then [] else [(.rs1, ins.rs1), (.rs2, ins.rs2)]
  | .lui | .auipc | .jal | .firClr | .ecall | .ebreak | .illegal => []

/-- Whether the instruction has a register result. -/
def writesRd (ins : Instruction) : Bool :=
  match ins.mnemonic with
  | .sw | .ecall | .ebreak | .illegal | .beq | .bne | .blt | .bge | .bltu | .bgeu => false
  | _ => true

/-- The register that later instructions may wait for; zero if there is none. -/
def produces (ins : Instruction) : Nat := if ins.writesRd then ins.rd else 0

def readsMemory (ins : Instruction) : Bool := ins.kind == .load

end Instruction

end AccelPipe

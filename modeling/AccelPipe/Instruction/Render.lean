import AccelPipe.Instruction.Decode
import AccelPipe.Text.Numeral

/-! Instructions as assembly text. Reading the text back gives an instruction of the same effect;
an illegal word is written as the word itself. -/
namespace AccelPipe.Instruction

def registerName (r : Nat) : String := "x" ++ Text.decimal r

/-- A word as data. -/
def wordText (word : Nat) : String := ".word " ++ Text.hexAddress word

/-- The operands of an instruction, in the order of assembly text. -/
def operandTexts (ins : Instruction) : List String :=
  let rd := registerName ins.rd
  let rs1 := registerName ins.rs1
  let rs2 := registerName ins.rs2
  let imm := Text.decimal ins.imm
  let memory := imm ++ "(" ++ rs1 ++ ")"
  match ins.mnemonic with
  | .illegal | .ecall | .ebreak => []
  | .lui | .auipc => [rd, Text.hex (u32 ins.imm / 0x1000 : Nat)]
  | .jal => [rd, Text.signedDecimal ins.imm]
  | .jalr | .lw | .conv2dLd | .firLd => [rd, memory]
  | .sw => [rs2, memory]
  | .beq | .bne | .blt | .bge | .bltu | .bgeu => [rs1, rs2, Text.signedDecimal ins.imm]
  | .firClr => [rd]
  | .fir | .relu => [rd, rs1]
  | .pool | .poolMax | .poolAvg => if ins.slides then [rd] else [rd, rs1, rs2]
  | .addi | .slti | .sltiu | .xori | .ori | .andi | .slli | .srli | .srai | .reluB =>
    [rd, rs1, imm]
  | .add | .sub | .sll | .slt | .sltu | .xor | .srl | .sra | .or | .and
  | .mac | .macW | .maca | .macz | .conv2d => [rd, rs1, rs2]

/-- The name of an instruction in assembly text; a pool instruction that slides is marked. -/
def nameText (ins : Instruction) : String :=
  match ins.kind with
  | .pool => if ins.slides then ins.mnemonic.name ++ ".n" else ins.mnemonic.name
  | _ => ins.mnemonic.name

def text (ins : Instruction) : String :=
  match ins.mnemonic with
  | .illegal => wordText ins.word
  | .ecall | .ebreak => ins.mnemonic.name
  | _ => ins.nameText ++ " " ++ String.intercalate ", " ins.operandTexts

end AccelPipe.Instruction

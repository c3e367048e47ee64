import AccelPipe.Instruction.Decode
import AccelPipe.Refusal

/-! Fields to words, one encoder for each format. Registers and immediates are checked; function
fields and opcodes are cut to their width. -/
namespace AccelPipe.Encode

def register (index : Int) : Except Refusal Nat :=
  if 0 ≤ index ∧ index < 32 then .ok index.toNat else .error (.registerIndex index)

/-- Accepts an immediate of the signed range of a width. -/
def immediate (value : Int) (bits : Nat) (format : String) : Except Refusal Unit :=
  let range := signedRange bits
  if range.1 ≤ value ∧ value ≤ range.2 then .ok ()
  else .error (.immediate format value range.1 range.2)

def evenOffset (offset : Int) (what : String) : Except Refusal Unit :=
  if offset % 2 = 0 then .ok () else .error (.oddOffset what offset)

/-- The low bits of a field. -/
def cut (v : Int) (bits : Nat) : Nat := (v % Nat.pow 2 bits).toNat

/-- The bits of a field from position `low` on. -/
def slice (v : Int) (low width : Nat) : Nat := (bitField v low width).toNat

def r (opcode rd funct3 rs1 rs2 funct7 : Int) : Except Refusal Nat := do
  let rd ← register rd
  let rs1 ← register rs1
  let rs2 ← register rs2
  return cut funct7 7 * 0x2000000 + rs2 * 0x100000 + rs1 * 0x8000 + cut funct3 3 * 0x1000 +
    rd * 0x80 + cut opcode 7

def i (opcode rd funct3 rs1 imm : Int) : Except Refusal Nat := do
  let rd ← register rd
  let rs1 ← register rs1
  immediate imm 12 "I-type"
  return cut imm 12 * 0x100000 + rs1 * 0x8000 + cut funct3 3 * 0x1000 + rd * 0x80 + cut opcode 7

def s (opcode funct3 rs1 rs2 imm : Int) : Except Refusal Nat := do
  let rs1 ← register rs1
  let rs2 ← register rs2
  immediate imm 12 "S-type"
  return slice imm 5 7 * 0x2000000 + rs2 * 0x100000 + rs1 * 0x8000 + cut funct3 3 * 0x1000 +
    slice imm 0 5 * 0x80 + cut opcode 7

def b (funct3 rs1 rs2 offset : Int) : Except Refusal Nat := do
  let rs1 ← register rs1
  let rs2 ← register rs2
  evenOffset offset "Branch"
  immediate offset 13 "B-type"
  return slice offset 12 1 * 0x80000000 + slice offset 5 6 * 0x2000000 + rs2 * 0x100000 +
    rs1 * 0x8000 + cut funct3 3 * 0x1000 + slice offset 1 4 * 0x100 + slice offset 11 1 * 0x80 +
    Opcode.branch

def u (opcode rd imm : Int) : Except Refusal Nat := do
  let rd ← register rd
  return cut imm 20 * 0x1000 + rd * 0x80 + cut opcode 7

def j (rd offset : Int) : Except Refusal Nat := do
  let rd ← register rd
  evenOffset offset "Jump"
  immediate offset 21 "J-type"
  return slice offset 20 1 * 0x80000000 + slice offset 1 10 * 0x200000 +
    slice offset 11 1 * 0x100000 + slice offset 12 8 * 0x1000 + rd * 0x80 + Opcode.jal

end AccelPipe.Encode

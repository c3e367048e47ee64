import AccelPipe.Commit
import AccelPipe.Instruction.Render

/-! How a run can differ from the reference machine. -/
namespace AccelPipe

inductive Mismatch where
  | pc (committed expected : Int)
  | word (committed : Nat) (addr : Int) (program : Nat)
  | value (ins : Instruction) (committed expected : Option Int)
  | store (ins : Instruction) (committed expected : Option Store)
  | finalRegister (r : Nat) (found expected : Int)
  | finalMemory (addr : Nat) (found expected : Int)
  /-- Memory words beyond those that are listed one by one. -/
  | moreMemory (count : Nat)

namespace Mismatch

def optional {α : Type} (text : α → String) : Option α → String
  | some a => text a
  | none => "None"

def message : Mismatch → String
  | pc committed expected =>
    "committed pc " ++ Text.hex committed ++ ", expected " ++ Text.hex expected
  | word committed addr program =>
    "word " ++ Text.hexAddress committed ++ " at " ++ Text.hex addr ++ ", program has " ++
      Text.hexAddress program
  | value ins committed expected =>
    ins.text ++ ": x" ++ Text.decimal ins.rd ++ " = " ++ optional Text.decimal committed ++
      ", expected " ++ optional Text.decimal expected
  | store ins committed expected =>
    ins.text ++ ": store " ++ optional Store.text committed ++ ", expected " ++
      optional Store.text expected
  | finalRegister r found expected =>
    "final x" ++ Text.decimal r ++ " = " ++ Text.decimal found ++ ", expected " ++
      Text.decimal expected
  | finalMemory addr found expected =>
    "final mem[" ++ Text.decimal addr ++ "] = " ++ Text.decimal found ++ ", expected " ++
      Text.decimal expected
  | moreMemory count => "... " ++ Text.decimal count ++ " more memory mismatches"

end Mismatch

end AccelPipe

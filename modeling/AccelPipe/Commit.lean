import AccelPipe.Coverage

/-! The record of one retired instruction. -/
namespace AccelPipe

/-- A word that an instruction has stored. -/
structure Store where
  addr : Int
  value : Int
deriving DecidableEq

def Store.text (s : Store) : String :=
  "(" ++ Text.decimal s.addr ++ ", " ++ Text.decimal s.value ++ ")"

structure Commit where
  cycle : Nat
  seq : Nat
  pc : Int
  ins : Instruction
  /-- The register that was written; zero if there is none. -/
  rd : Nat
  value : Option Int
  store : Option Store
  taken : Bool
  target : Option Nat
  saturated : Bool
  /-- The paths on which operands came, each once, in alphabetical order. -/
  paths : List ForwardPath

end AccelPipe

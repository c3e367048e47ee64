import AccelPipe.Refusal
import AccelPipe.Room

/-! Why a source text does not assemble, with the line where that shows. -/
namespace AccelPipe.Assembly

/-- A fault in the operands of one statement. -/
inductive StatementFault where
  | refused (refusal : Refusal)
  | missingOperand

inductive Cause where
  | duplicateLabel (name : String)
  | orgAddress (text : String)
  | orgPosition (target pc : Int)
  | size (expected actual : Int)
  | statement (fault : StatementFault) (text : String)
  /-- A placement that more words lie in front of than can be held. -/
  | noRoom (lack : Lack)

structure Error where
  line : Nat
  cause : Cause

def StatementFault.message : StatementFault → String
  | refused refusal => refusal.message
  | missingOperand => "list index out of range"

def Cause.message : Cause → String
  | duplicateLabel name => "Duplicate label: " ++ name
  | orgAddress text => "Bad .org address: " ++ text
  | orgPosition target pc =>
    ".org " ++ Text.hex target ++ " must be word aligned and not behind pc " ++ Text.hex pc
  | size expected actual =>
    "size mismatch: expected " ++ Text.decimal expected ++ ", got " ++ Text.decimal actual
  | statement fault text => fault.message ++ " in: " ++ text
  | noRoom _ => "no room"

def Error.message (e : Error) : String :=
  "Line " ++ Text.decimal e.line ++ ": " ++ e.cause.message

end AccelPipe.Assembly

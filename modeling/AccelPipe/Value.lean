import AccelPipe.Binary64
import AccelPipe.Text.Quoted

/-! Structured data: what a configuration is read from and what a report is written as. The
fields of a record keep the order in which they were first given. -/
namespace AccelPipe

inductive Value where
  | null
  | bool (b : Bool)
  | int (n : Int)
  | real (x : Binary64)
  | text (s : String)
  | list (items : List Value)
  | record (fields : List (String × Value))

/-- Why a value cannot be written down. -/
inductive Obstacle where
  /-- More containers inside each other than are followed. -/
  | tooDeep
  /-- A number without a decimal text. -/
  | tooLong
deriving DecidableEq

/-- What comes in the way of writing numbers down. -/
def Obstacle.ofNumbers? (ns : List Int) : Option Obstacle :=
  if ns.all Text.isWritable then none else some .tooLong

/-- A field given again keeps its place and takes the later value. -/
def assign {α : Type} (fields : List (String × α)) (name : String) (value : α) :
    List (String × α) :=
  match fields with
  | [] => [(name, value)]
  | (n, v) :: rest => if n = name then (n, value) :: rest else (n, v) :: assign rest name value

namespace Value

mutual

/-- A value written on one line, texts between quotes. -/
def shown : Value → String
  | null => "None"
  | bool b => if b then "True" else "False"
  | int n => Text.decimal n
  | real x => x.text
  | text s => Text.quoted s
  | list items => "[" ++ String.intercalate ", " (shownItems items) ++ "]"
  | record fields => "\x7b" ++ String.intercalate ", " (shownFields fields) ++ "\x7d"

def shownItems : List Value → List String
  | [] => []
  | v :: rest => v.shown :: shownItems rest

def shownFields : List (String × Value) → List String
  | [] => []
  | (name, v) :: rest => (Text.quoted name ++ ": " ++ v.shown) :: shownFields rest

end

mutual

/-- Whether every number in a value has a decimal text. -/
def isWritable : Value → Bool
  | int n => Text.isWritable n
  | list items => areWritable items
  | record fields => haveWritable fields
  | _ => true

def areWritable : List Value → Bool
  | [] => true
  | v :: rest => v.isWritable && areWritable rest

def haveWritable : List (String × Value) → Bool
  | [] => true
  | (_, v) :: rest => v.isWritable && haveWritable rest

end

mutual

/-- What comes in the way of writing a value on one line, with so many levels of containers left:
the first thing on the way through it from left to right. -/
def obstacle? : Nat → Value → Option Obstacle
  | 0, _ => some .tooDeep
  | _ + 1, int n => Obstacle.ofNumbers? [n]
  | inner + 1, list items => firstObstacle? inner items
  | inner + 1, record fields => firstObstacleOf? inner fields
  | _ + 1, _ => none

def firstObstacle? (levels : Nat) : List Value → Option Obstacle
  | [] => none
  | v :: rest => (v.obstacle? levels).or (firstObstacle? levels rest)

def firstObstacleOf? (levels : Nat) : List (String × Value) → Option Obstacle
  | [] => none
  | (_, v) :: rest => (v.obstacle? levels).or (firstObstacleOf? levels rest)

end

/-- A value written on one line, a text at the top level as it is. -/
def plain : Value → String
  | text s => s
  | v => v.shown

def field? (name : String) : Value → Option Value
  | record fields => fields.lookup name
  | _ => none

def ints (ns : List Int) : Value := list (ns.map int)

def nats (ns : List Nat) : Value := list (ns.map (int ∘ Int.ofNat))

def texts (ss : List String) : Value := list (ss.map text)

def orNull {α : Type} (f : α → Value) : Option α → Value
  | some a => f a
  | none => null

end Value

end AccelPipe

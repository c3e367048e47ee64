import AccelPipe.Bits
import AccelPipe.Failure

/-! The register file: 32 signed 32-bit numbers, of which the first always reads as zero. -/
namespace AccelPipe

/-- Registers that nobody has written are zero. -/
theorem isWord_cleared (i : Nat) (h : i < 32) : IsWord (Vector.replicate 32 (0 : Int))[i] := by
  rw [Vector.getElem_replicate]
  exact isWord_zero

structure Registers where
  cells : Vector Int 32 := Vector.replicate 32 0
  words : ∀ (i : Nat) (h : i < 32), IsWord cells[i] := by exact isWord_cleared

namespace Registers

variable (r : Registers)

/-- A register gets the low 32 bits of a number. -/
def set (i : Nat) (value : Int) : Registers where
  cells := r.cells.setIfInBounds i (s32 value)
  words j h := by
    rw [Vector.getElem_setIfInBounds]
    split
    · exact isWord_s32 value
    · exact r.words j h

def read (i : Nat) : Int := if i = 0 then 0 else (r.cells[i]?).getD 0

def write (i : Nat) (value : Int) : Registers :=
  if i = 0 then r else r.set i value

def toList : List Int := r.cells.toList

/-- The register at an index that nobody has checked. Negative indices count from the end. -/
def readAt (index : Int) : Except Failure Int :=
  if index = 0 then .ok 0
  else match place? 32 index with
    | some i => .ok ((r.cells[i]?).getD 0)
    | none => .error .indexOutOfRange

def writeAt (index value : Int) : Except Failure Registers :=
  if index = 0 then .ok r
  else match place? 32 index with
    | some i => .ok (r.set i value)
    | none => .error .indexOutOfRange

def cellText (i : Nat) : String :=
  "x" ++ Text.padRight 2 (Text.decimal i) ++ "=" ++ Text.hexColumn 8 (u32 ((r.cells[i]?).getD 0))

/-- All registers in hexadecimal, four to a line. -/
def dump : String :=
  String.intercalate "\n" ((List.range 8).map fun row =>
    "  " ++ String.intercalate "  " ((List.range 4).map fun column =>
      r.cellText (4 * row + column)))

theorem isWord_read (i : Nat) : IsWord (r.read i) := by
  unfold read
  split
  · exact isWord_zero
  · cases hCell : r.cells[i]? with
    | none => exact isWord_zero
    | some v =>
        obtain ⟨h, rfl⟩ := Vector.getElem?_eq_some_iff.mp hCell
        exact r.words i h

theorem read_zero : r.read 0 = 0 := rfl

theorem read_write_self {i : Nat} (h : i < 32) (v : Int) (hi : i ≠ 0) :
    (r.write i v).read i = s32 v := by
  simp [read, write, set, hi, h]

theorem read_write_of_ne {i j : Nat} (v : Int) (h : j ≠ i) :
    (r.write i v).read j = r.read j := by
  unfold read write set
  split
  · rfl
  · split
    · rfl
    · simp [Ne.symm h]

end Registers

end AccelPipe

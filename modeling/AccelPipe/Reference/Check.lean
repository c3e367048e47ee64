import AccelPipe.Reference.Basic
import AccelPipe.Reference.Mismatch

/-! Comparing a run with the reference machine: commit by commit, and once more at the end. -/
namespace AccelPipe.Reference

def when (condition : Bool) (m : Mismatch) : List Mismatch := if condition then [m] else []

/-- Whether a committed register value is not the expected one. -/
def differs (committed expected : Option Int) : Bool :=
  match committed with
  | some v => some (s32 v) != expected
  | none => true

/-- How a commit differs from the instruction that the program has there, and from its effect. -/
def mismatchesOf (expectedPc : Int) (c : Commit) (ins : Instruction) (e : Effect) :
    List Mismatch :=
  when (c.pc != expectedPc) (.pc c.pc expectedPc) ++
  when (ins.word != c.ins.word) (.word c.ins.word c.pc ins.word) ++
  when (ins.writesRd && ins.rd != 0 && differs c.value e.value) (.value ins c.value e.value) ++
  when (e.store != c.store) (.store ins c.store e.store)

/-- Executes the instruction behind a commit from the program, and lists how the commit differs
from it. A commit whose instruction fails is not counted. -/
def check (r : Reference) (c : Commit) : Except Failure (List Mismatch) × Reference :=
  let ins := Instruction.decode (r.program.fetch c.pc)
  let expectedPc := r.expectedPc
  match r.execute ins c.pc with
  | (.error f, r) => (.error f, r)
  | (.ok e, r) =>
    let mismatches := mismatchesOf expectedPc c ins e
    (.ok mismatches,
     { r with
       expectedPc := e.nextPc
       checked := r.checked + 1
       mismatches := r.mismatches + mismatches.length })

/-- Register values that are not those of the machine, the zero register aside. -/
def registerMismatches (r : Reference) (registers : List Int) : List Mismatch :=
  ((registers.zip r.registers.toList).zipIdx.drop 1).filterMap fun ((found, expected), i) =>
    if s32 found = expected then none else some (.finalRegister i found expected)

/-- Memory words that are not those of the machine. The first eight are listed, the others are
counted. -/
def memoryMismatches (r : Reference) (words : List Int) : List Mismatch :=
  let all := ((words.zip r.memory.toList).zipIdx).filterMap fun ((found, expected), i) =>
    if found = expected then none else some (Mismatch.finalMemory i found expected)
  all.take 8 ++ when (8 < all.length) (.moreMemory (all.length - 8))

/-- Compares the final registers and memory of a run. -/
def compareFinal (r : Reference) (registers words : List Int) : Except Failure (List Mismatch) :=
  if words.all fits64 then .ok (r.registerMismatches registers ++ r.memoryMismatches words)
  else .error .tooWide

end AccelPipe.Reference

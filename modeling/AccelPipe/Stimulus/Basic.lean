import AccelPipe.Assembly.Program
import AccelPipe.Failure
import AccelPipe.Stimulus.Stream

/-! Random programs with their data. A seed, a length and a configuration determine them. -/
namespace AccelPipe

structure Stimulus where
  seed : Int
  source : String
  words : List Nat
  data : List (Int × List Int)

namespace Stimulus

def comment (seed length : Int) : String :=
  "; random stream seed=" ++ Text.decimal seed ++ " length=" ++ Text.decimal length

def sourceOf (seed length : Int) (d : Draft) : String :=
  String.intercalate "\n" (comment seed length :: d.lines.map Line.text) ++ "\n"

/-- The program of a draft. -/
def ofDraft (seed length : Int) (d : Draft) : Except Failure Stimulus := do
  let source := sourceOf seed length d
  let p ← (Assembly.assemble source.toList 0).mapError .ofAssembly
  return ⟨seed, source, p.words, d.data⟩

/-- A program of roughly `length` instructions. Its text names the seed and the length. -/
def build (seed length : Int) (c : Config) : Draw (Except Failure Stimulus) :=
  if Text.isWritable seed && Text.isWritable length then do
    return ofDraft seed length (← draft length.toNat c)
  else return .error (.refused .unwritable)

/-- The program of a seed, whose sign does not matter to it. -/
def generate (seed length : Int) (c : Config) : Except Failure Stimulus :=
  ((build seed length c).run (Twister.ofSeed seed.natAbs)).1

/-- Programs of consecutive seeds. -/
def generateMany (count : Nat) (seed length : Int) (c : Config) :
    Except Failure (List Stimulus) :=
  (List.range count).mapM fun i : Nat => generate (seed + i) length c

end Stimulus

end AccelPipe

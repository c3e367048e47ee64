/-! The Mersenne twister with 624 words of 32 bits: a sequence of words that a seed determines. -/
namespace AccelPipe

structure Twister where
  words : Array UInt32
  /-- How many of the words have been handed out. -/
  used : Nat

namespace Twister

def size : Nat := 624

def word (words : Array UInt32) (i : Nat) : UInt32 := words.getD i 0

/-- A word mixed with its own upper bits. -/
def fold30 (w : UInt32) : UInt32 := w ^^^ (w >>> 30)

/-- Words from one word, each from the one before. -/
def spread (first : UInt32) : Array UInt32 :=
  (List.range (size - 1)).foldl
    (fun words i => words.push (1812433253 * fold30 (word words i) + UInt32.ofNat (i + 1)))
    #[first]

/-- A round of stirring goes through the words in circles, leaving out the first, which follows the
last. -/
structure Stirring where
  words : Array UInt32
  place : Nat

/-- Replaces the word at the current place by one that also depends on the word before it. -/
def Stirring.step (s : Stirring) (factor : UInt32) (term : UInt32) : Stirring :=
  let before := word s.words (s.place - 1)
  let w := (word s.words s.place ^^^ (fold30 before * factor)) + term
  let words := s.words.setIfInBounds s.place w
  if s.place + 1 < size then ⟨words, s.place + 1⟩
  else ⟨words.setIfInBounds 0 (word words (size - 1)), 1⟩

/-- The generator of a key of 32-bit digits. -/
def ofKey (key : List UInt32) : Twister :=
  let keys := key.toArray
  let first := (List.range (max size keys.size)).foldl
    (fun (s : Stirring) k =>
      let j := k % keys.size
      s.step 1664525 (word keys j + UInt32.ofNat j))
    ⟨spread 19650218, 1⟩
  let second := (List.range (size - 1)).foldl
    (fun (s : Stirring) _ => s.step 1566083941 (0 - UInt32.ofNat s.place)) first
  ⟨second.words.setIfInBounds 0 0x80000000, size⟩

/-- The digits of a number to the base 2 ^ 32, the lowest first; zero has one digit. -/
def digits (n : Nat) : List UInt32 :=
  if n < 0x100000000 then [UInt32.ofNat n] else UInt32.ofNat n :: digits (n / 0x100000000)
termination_by n
decreasing_by omega

def ofSeed (seed : Nat) : Twister := ofKey (digits seed)

/-- Replaces a word by a mix of three others. -/
def twistAt (words : Array UInt32) (k : Nat) : Array UInt32 :=
  let joined := (word words k &&& 0x80000000) ||| (word words ((k + 1) % size) &&& 0x7fffffff)
  let mask : UInt32 := if joined &&& 1 == 1 then 0x9908b0df else 0
  words.setIfInBounds k (word words ((k + 397) % size) ^^^ (joined >>> 1) ^^^ mask)

def twist (words : Array UInt32) : Array UInt32 := (List.range size).foldl twistAt words

def temper (w : UInt32) : UInt32 :=
  let w := w ^^^ (w >>> 11)
  let w := w ^^^ ((w <<< 7) &&& 0x9d2c5680)
  let w := w ^^^ ((w <<< 15) &&& 0xefc60000)
  w ^^^ (w >>> 18)

def next (t : Twister) : UInt32 × Twister :=
  let t := if t.used < size then t else ⟨twist t.words, 0⟩
  (temper (word t.words t.used), { t with used := t.used + 1 })

/-- A number of `count` bits; those beyond a word come from further words, which stand higher. -/
def bits (count : Nat) (t : Twister) : Nat × Twister :=
  let (w, t) := t.next
  if count ≤ 32 then (w.toNat / Nat.pow 2 (32 - count), t)
  else
    let (high, t) := bits (count - 32) t
    (w.toNat + 0x100000000 * high, t)
termination_by count

/-- Draws numbers as wide as the bound until one lies below it. -/
def tryBelow (bound : Nat) : Nat → Twister → Nat × Twister
  | 0, t => (0, t)
  | tries + 1, t =>
    let (n, t) := t.bits (Nat.log2 bound + 1)
    if n < bound then (n, t) else tryBelow bound tries t

/-- A number below a positive bound. Every try succeeds with a chance of one half at least, so that
a thousand tries are enough. -/
def below (bound : Nat) (t : Twister) : Nat × Twister := tryBelow bound 1000 t

/-- A number of 53 bits from two words. -/
def fraction (t : Twister) : Nat × Twister :=
  let (a, t) := t.next
  let (b, t) := t.next
  (a.toNat / 0x20 * 0x4000000 + b.toNat / 0x40, t)

end Twister

end AccelPipe

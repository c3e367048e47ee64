/-! Bytes read as UTF-8. A refused text is located: the error holds the first byte of the
offending sequence, how far the sequence goes, and what is wrong with it. -/
namespace AccelPipe.Text.Utf8

inductive Fault where
  | start
  | continuation
  | truncated
deriving DecidableEq

/-- The bytes from position `first` on, `length` of them, cannot be read. -/
structure Undecodable where
  first : Nat
  length : Nat
  byte : Nat
  fault : Fault

def isContinuation (b : UInt8) : Bool := 0x80 ≤ b && b < 0xc0

/-- The second byte of a sequence, which excludes overlong forms, surrogates and codes beyond
the last character. -/
def secondAllowed (lead second : UInt8) : Bool :=
  isContinuation second &&
    (if lead == 0xe0 then 0xa0 ≤ second
     else if lead == 0xed then second < 0xa0
     else if lead == 0xf0 then 0x90 ≤ second
     else if lead == 0xf4 then second < 0x90
     else true)

def payload (b : UInt8) : Nat := b.toNat % 64

/-- Reads the bytes from position `at` on. -/
def decodeFrom (pos : Nat) : List UInt8 → Except Undecodable (List Char)
  | [] => .ok []
  | a :: rest =>
    let bad (length : Nat) (fault : Fault) : Except Undecodable (List Char) :=
      .error ⟨pos, length, a.toNat, fault⟩
    if a < 0x80 then (Char.ofNat a.toNat :: ·) <$> decodeFrom (pos + 1) rest
    else if a < 0xc2 || 0xf4 < a then bad 1 .start
    else if a < 0xe0 then
      match rest with
      | [] => bad 1 .truncated
      | b :: rest =>
        if !isContinuation b then bad 1 .continuation
        else (Char.ofNat (a.toNat % 32 * 64 + payload b) :: ·) <$> decodeFrom (pos + 2) rest
    else if a < 0xf0 then
      match rest with
      | [] => bad 1 .truncated
      | [b] => if !secondAllowed a b then bad 1 .continuation else bad 2 .truncated
      | b :: c :: rest =>
        if !secondAllowed a b then bad 1 .continuation
        else if !isContinuation c then bad 2 .continuation
        else (Char.ofNat (a.toNat % 16 * 4096 + payload b * 64 + payload c) :: ·) <$>
          decodeFrom (pos + 3) rest
    else
      match rest with
      | [] => bad 1 .truncated
      | [b] => if !secondAllowed a b then bad 1 .continuation else bad 2 .truncated
      | [b, c] =>
        if !secondAllowed a b then bad 1 .continuation
        else if !isContinuation c then bad 2 .continuation
        else bad 3 .truncated
      | b :: c :: d :: rest =>
        if !secondAllowed a b then bad 1 .continuation
        else if !isContinuation c then bad 2 .continuation
        else if !isContinuation d then bad 3 .continuation
        else
          let code := a.toNat % 8 * 262144 + payload b * 4096 + payload c * 64 + payload d
          (Char.ofNat code :: ·) <$> decodeFrom (pos + 4) rest

def decode (bytes : List UInt8) : Except Undecodable (List Char) := decodeFrom 0 bytes

end AccelPipe.Text.Utf8

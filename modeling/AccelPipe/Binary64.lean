import AccelPipe.Text.Numeral

/-! Binary fractions of 53 bits, as exact numbers: the nearest one to a quotient, and the shortest
decimal that reads back as the same one. All arithmetic is on natural numbers. -/
namespace AccelPipe

/-- A finite value is `mantissa * 2 ^ exponent` with its sign. -/
inductive Binary64 where
  | finite (negative : Bool) (mantissa : Nat) (exponent : Int)
  | infinite (negative : Bool)
  | undefined
deriving DecidableEq

namespace Binary64

/-- The quotient rounded to the nearest natural number, a half going to the even neighbour. -/
def roundDiv (num den : Nat) : Nat :=
  let quotient := num / den
  let rest := 2 * (num % den)
  if den < rest ∨ (rest = den ∧ quotient % 2 = 1) then quotient + 1 else quotient

/-- The quotient `num / den` in units of `2 ^ exponent`, as a fraction. -/
def scaled (num den : Nat) (exponent : Int) : Nat × Nat :=
  if 0 ≤ exponent then (num, den * Nat.pow 2 exponent.toNat)
  else (num * Nat.pow 2 (-exponent).toNat, den)

/-- The nearest value to `num / den`, for a positive `den`. -/
def nearest (negative : Bool) (num den : Nat) : Binary64 :=
  if num = 0 then .finite negative 0 0
  else
    let guess : Int := (Nat.log2 num : Int) - Nat.log2 den - 53
    let fraction := scaled num den guess
    let guess := if Nat.pow 2 53 ≤ fraction.1 / fraction.2 then guess + 1 else guess
    let exponent := max guess (-1074)
    let fraction := scaled num den exponent
    let mantissa := roundDiv fraction.1 fraction.2
    let value :=
      if mantissa = Nat.pow 2 53 then (Nat.pow 2 52, exponent + 1) else (mantissa, exponent)
    if 971 < value.2 then .infinite negative else .finite negative value.1 value.2

/-- The value of a decimal literal `digits * 10 ^ power`. Powers far outside the range of finite
values are cut short, which does not change the result. -/
def ofDecimal (negative : Bool) (digits : Nat) (power : Int) : Binary64 :=
  let size : Int := (Nat.toDigits 10 digits).length
  if digits = 0 then .finite negative 0 0
  else if 400 < power + size then .infinite negative
  else if power + size < -400 then .finite negative 0 0
  else if 0 ≤ power then nearest negative (digits * Nat.pow 10 power.toNat) 1
  else nearest negative digits (Nat.pow 10 (-power).toNat)

/-- The power `k` with `10 ^ (k - 1) ≤ num / den < 10 ^ k`. -/
def decimalPoint (num den : Nat) : Int :=
  if den ≤ num then (Nat.toDigits 10 (num / den)).length
  else 1 - (((List.range 400).find? fun j => den ≤ num * Nat.pow 10 j).getD 400 : Int)

/-- A decimal of `count` digits inside the interval of numbers that round to
`mantissa * 2 ^ exponent`, if there is one; of two the nearer, of two equally near the even one.
The result counts units of `10 ^ (point - count)`. The ends of the interval belong to it exactly if
the mantissa is even. -/
def withDigits? (mantissa : Nat) (exponent point : Int) (count : Nat) : Option Nat :=
  let below : Nat := if mantissa = Nat.pow 2 52 ∧ -1074 < exponent then 1 else 2
  let unit := point - count
  -- everything is compared in units of 2 ^ (exponent - 2), times the grid's denominator
  let grid : Nat × Nat :=
    if 0 ≤ unit then (Nat.pow 10 unit.toNat, 1) else (1, Nat.pow 10 (-unit).toNat)
  let binary : Nat × Nat :=
    if 2 ≤ exponent then (Nat.pow 2 (exponent - 2).toNat, 1)
    else (1, Nat.pow 2 (2 - exponent).toNat)
  let step := grid.1 * binary.2
  let one := binary.1 * grid.2
  let value := 4 * mantissa * one
  let low := (4 * mantissa - below) * one
  let high := (4 * mantissa + 2) * one
  let inside (n : Nat) : Bool :=
    if mantissa % 2 = 0 then low ≤ n && n ≤ high else low < n && n < high
  let floor := value / step
  let down := inside (floor * step)
  let up := inside ((floor + 1) * step)
  if down && up then
    let beyond := 2 * (value - floor * step)
    some (if beyond < step ∨ (beyond = step ∧ floor % 2 = 0) then floor else floor + 1)
  else if down then some floor
  else if up then some (floor + 1)
  else none

/-- The fewest digits that read back, with the place of the point: `0.digits * 10 ^ point`. -/
def shortest (mantissa : Nat) (exponent : Int) : List Char × Int :=
  let fraction := scaled mantissa 1 (-exponent)
  let point := decimalPoint fraction.1 fraction.2
  let counts := (List.range 17).map (· + 1)
  match counts.findSome? fun n => (withDigits? mantissa exponent point n).map (n, ·) with
  | some (n, value) =>
    let digits := Nat.toDigits 10 value
    ((digits.reverse.dropWhile (· == '0')).reverse, point + (digits.length - n : Int))
  | none => (['0'], 1)

/-- Numbers from 0.0001 up to below 10 ^ 16 are written positionally, the rest with an exponent
of two digits at least. A point is always shown in the positional form. -/
def text : Binary64 → String
  | .undefined => "nan"
  | .infinite negative => if negative then "-inf" else "inf"
  | .finite negative mantissa exponent =>
    let sign := if negative then "-" else ""
    if mantissa = 0 then sign ++ "0.0"
    else
      let (digits, point) := shortest mantissa exponent
      let zeros (n : Int) : List Char := List.replicate n.toNat '0'
      if point ≤ -4 ∨ 16 < point then
        let power := point - 1
        let mark := if power < 0 then "e-" else "e+"
        let fractional := if digits.length ≤ 1 then [] else '.' :: digits.drop 1
        sign ++ String.ofList (digits.take 1 ++ fractional) ++ mark ++
          (if power.natAbs < 10 then "0" else "") ++ Text.decimal power.natAbs
      else if point ≤ 0 then sign ++ String.ofList ('0' :: '.' :: zeros (-point) ++ digits)
      else
        let whole := digits.take point.toNat ++ zeros (point - digits.length)
        let fractional := digits.drop point.toNat
        sign ++ String.ofList (whole ++ '.' :: (if fractional.isEmpty then ['0'] else fractional))

end Binary64

/-- A quotient to three places: the nearest binary fraction to it, rounded to thousandths. -/
def thousandths (num den : Nat) : Nat :=
  if den = 0 then 0
  else match Binary64.nearest false num den with
    | .finite _ mantissa exponent =>
      let fraction := Binary64.scaled (1000 * mantissa) 1 (-exponent)
      Binary64.roundDiv fraction.1 fraction.2
    | _ => 0

/-- Thousandths with exactly three places. -/
def threePlaces (n : Nat) : String :=
  Text.decimal (n / 1000 : Nat) ++ "." ++ Text.zeroFilled 3 "" (Text.decimal (n % 1000 : Nat)) 0

end AccelPipe

import Playhead.Decimal.Binary64

/-!
# Shortest decimals

The decimal with the fewest digits that lies so near to a floating-point number that it reads back
as that number; of several such, the nearest, and of two equally near the larger. It is written
positionally, without an exponent, and without a point when it is whole.
-/

namespace Playhead

/-- `± digits * 10 ^ exponent`. -/
structure Decimal where
  negative : Bool
  digits : Nat
  exponent : Int
  deriving DecidableEq, Repr

namespace Decimal

/-- `10 ^ exponent` as numerator and denominator. -/
def power (exponent : Int) : Nat × Nat :=
  if 0 ≤ exponent then (Nat.pow 10 exponent.toNat, 1) else (1, Nat.pow 10 (-exponent).toNat)

/-- Take zeros at the end of the digits into the exponent. -/
def trim (digits : Nat) (exponent : Int) : Nat × Int :=
  if h : digits ≠ 0 ∧ digits % 10 = 0 then trim (digits / 10) (exponent + 1) else (digits, exponent)
termination_by digits
decreasing_by omega

/-- The largest power of ten that is at most `num / den`, given one that is near below it. -/
def leadingPower (num den : Nat) (guess : Int) : Nat → Int
  | 0 => guess
  | tries + 1 =>
    let (n, d) := power (guess + 1)
    if n * den ≤ num * d then leadingPower num den (guess + 1) tries else guess

/-- The decimal written positionally. -/
def text (x : Decimal) : String :=
  let (digits, exponent) := trim x.digits x.exponent
  let all := (toString digits).toList
  let body :=
    if 0 ≤ exponent then all ++ List.replicate exponent.toNat '0'
    else
      let places := (-exponent).toNat
      let padded := List.replicate (places + 1 - all.length) '0' ++ all
      padded.take (padded.length - places) ++ '.' :: padded.drop (padded.length - places)
  (if x.negative then "-" else "") ++ String.ofList (if x.digits = 0 then ['0'] else body)

end Decimal

namespace Binary64

/-- The first grid of decimals, from `count` digits on, that has a point which reads back as
`mantissa * 2 ^ exponent`. -/
def firstGrid (mantissa : Nat) (exponent leading : Int) (count : Nat) : Nat → Nat × Int
  | 0 => (0, 0)
  | tries + 1 =>
    let place := leading - count + 1
    let (n, d) := Decimal.power place
    let (quarter, q) := scaleTwo 1 (exponent - 2)
    let center := 4 * mantissa * quarter
    let low := center - (if mantissa = full ∧ exponent ≠ -1074 then quarter else 2 * quarter)
    let high := center + 2 * quarter
    let reads (c : Nat) : Bool :=
      if mantissa % 2 = 0 then low * d ≤ c * n * q && c * n * q ≤ high * d
      else low * d < c * n * q && c * n * q < high * d
    let lower := center * d / (n * q)
    let upper := lower + 1
    match reads lower, reads upper with
    | true, false => (lower, place)
    | false, true => (upper, place)
    | true, true =>
      if 2 * center * d < (lower + upper) * n * q then (lower, place) else (upper, place)
    | false, false => firstGrid mantissa exponent leading (count + 1) tries

/-- The shortest decimal of a finite number. Seventeen digits always suffice. -/
def shortest (negative : Bool) (mantissa : Nat) (exponent : Int) : Decimal :=
  if mantissa = 0 then { negative, digits := 0, exponent := 0 }
  else
    let (n, d) := scaleTwo mantissa exponent
    let guess := ((mantissa.log2 : Int) + exponent) * 30103 / 100000 - 1
    let leading := Decimal.leadingPower n d guess 4
    let (digits, place) := firstGrid mantissa exponent leading 1 17
    { negative, digits, exponent := place }

/-- A number as text. -/
def text : Binary64 → String
  | finite negative mantissa exponent => (shortest negative mantissa exponent).text
  | infinite negative => if negative then "-inf" else "inf"
  | nan => "NaN"

end Binary64

end Playhead

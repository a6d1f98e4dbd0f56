/-!
# Binary floating point

Numbers of the 64-bit binary format, held as a sign, a mantissa and a power of two, so that
rounding and comparing them is exact arithmetic. `Binary64.nearest` rounds a quotient to the
nearest number of the format and breaks ties to the even mantissa.
-/

namespace Playhead

/-- A number of the 64-bit binary format. A finite one is `± mantissa * 2 ^ exponent`, with a
mantissa below `2 ^ 53` and the smallest exponent that allows, but none below `-1074`. -/
inductive Binary64 where
  | finite (negative : Bool) (mantissa : Nat) (exponent : Int)
  | infinite (negative : Bool)
  | nan
  deriving DecidableEq, Repr

/-- The whole number nearest to `num / den`; of two the even one. -/
def roundHalfEven (num den : Nat) : Nat :=
  let q := num / den
  let r := num % den
  if 2 * r < den || (2 * r == den && q % 2 == 0) then q else q + 1

/-- `x * 2 ^ exponent` as numerator and denominator. -/
def scaleTwo (x : Nat) (exponent : Int) : Nat × Nat :=
  if 0 ≤ exponent then (x <<< exponent.toNat, 1) else (x, 1 <<< (-exponent).toNat)

namespace Binary64

/-- The least mantissa of full width, with 53 bits. -/
def full : Nat := 0x10000000000000

/-- Zero with a sign. -/
def zero (negative : Bool) : Binary64 := .finite negative 0 (-1074)

def one : Binary64 := .finite false full (-52)

/-- The number nearest to `± num / den`. -/
def nearest (negative : Bool) (num den : Nat) : Binary64 :=
  if num = 0 then zero negative
  else
    let guess : Int := (num.log2 : Int) - den.log2 - 52
    let quotient (e : Int) : Nat × Nat :=
      let (up, down) := scaleTwo 1 (-e)
      (num * up, den * down)
    let (n, d) := quotient guess
    let exponent := max (if n < full * d then guess - 1 else guess) (-1074)
    let (n, d) := quotient exponent
    let mantissa := roundHalfEven n d
    let (mantissa, exponent) :=
      if mantissa = 2 * full then (full, exponent + 1) else (mantissa, exponent)
    if 971 < exponent then .infinite negative else .finite negative mantissa exponent

/-- The number nearest to a natural number. -/
def ofNat (n : Nat) : Binary64 := nearest false n 1

/-- The number nearest to `± digits * 10 ^ exponent`. Powers of ten far beyond the format are
settled without being computed. -/
def ofDecimal (negative : Bool) (digits : Nat) (exponent : Int) : Binary64 :=
  if digits = 0 then zero negative
  else if 400 < exponent then .infinite negative
  else if exponent < -400 - (digits.log2 : Int) then zero negative
  else if 0 ≤ exponent then nearest negative (digits * Nat.pow 10 exponent.toNat) 1
  else nearest negative digits (Nat.pow 10 (-exponent).toNat)

/-- The quotient of two numbers that are finite and not negative, for a divisor other than
zero. -/
def quotient : Binary64 → Binary64 → Binary64
  | finite _ m e, finite _ m' e' =>
    let (n, d) := scaleTwo m e
    let (n', d') := scaleTwo m' e'
    nearest false (n * d') (d * n')
  | _, _ => nan

/-- Whether `x < y`, for finite numbers that are not negative. -/
def below : Binary64 → Binary64 → Bool
  | finite _ m e, finite _ m' e' =>
    let (n, d) := scaleTwo m e
    let (n', d') := scaleTwo m' e'
    n * d' < n' * d
  | _, _ => false

/-- Whether the number differs from zero; what is no number does. -/
def isNonzero : Binary64 → Bool
  | finite _ mantissa _ => mantissa != 0
  | _ => true

/-- The nearest whole number, halves away from zero, brought into `0 … most`. What is no number
becomes zero. -/
def toNatClamped (most : Nat) : Binary64 → Nat
  | finite true _ _ => 0
  | finite false mantissa exponent =>
    let (n, d) := scaleTwo mantissa exponent
    min ((2 * n + d) / (2 * d)) most
  | infinite negative => if negative then 0 else most
  | nan => 0

/-- The 64 bits of the number: sign, exponent and fraction. -/
def bits : Binary64 → Nat
  | finite negative mantissa exponent =>
    signBit negative +
      if mantissa < full then mantissa
      else (exponent + 1075).toNat * full + (mantissa - full)
  | infinite negative => signBit negative + 0x7ff0000000000000
  | nan => 0x7ff8000000000000
where
  signBit (negative : Bool) : Nat := if negative then 0x8000000000000000 else 0

end Binary64

end Playhead

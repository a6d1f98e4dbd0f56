import Playhead.Text

/-!
# Dates and times in TOML

A date, a time of day, or a date with a time and perhaps an offset from universal time. Reading
checks that the day exists and gives the normal text: a capital `T` divides date and time, and a
fraction of a second carries from one to nine digits, of which only the first may be a zero at the
end. Seconds and fractions that were left out stay out.
-/

namespace Playhead.Toml

/-- The value of a decimal digit. -/
def digit? (c : Char) : Option Nat := if c.isDigit then some (c.toNat - '0'.toNat) else none

/-- Two decimal digits as a number that is at most `most`. -/
def twoDigits? (most : Nat) (a b : Char) : Option Nat := do
  let x ← digit? a
  let y ← digit? b
  let n := 10 * x + y
  if n ≤ most then some n else none

def daysInMonth (year month : Nat) : Nat :=
  if month = 2 then
    if year % 4 = 0 ∧ (year % 100 ≠ 0 ∨ year % 400 = 0) then 29 else 28
  else if month = 4 ∨ month = 6 ∨ month = 9 ∨ month = 11 then 30
  else 31

/-- A date at the front, in normal form, and what follows it. -/
def day? : List Char → Option (String × List Char)
  | a :: b :: c :: d :: '-' :: e :: f :: '-' :: g :: h :: r => do
    let century ← twoDigits? 99 a b
    let ofCentury ← twoDigits? 99 c d
    let year := 100 * century + ofCentury
    let month ← twoDigits? 12 e f
    let day ← twoDigits? (daysInMonth year month) g h
    if month = 0 ∨ day = 0 then none
    else some (s!"{zeroPadded 4 year}-{zeroPadded 2 month}-{zeroPadded 2 day}", r)
  | _ => none

/-- Digits of a fraction of a second in normal form. -/
def fraction (digits : List Char) : String :=
  match ((digits.take 9).reverse.dropWhile (· == '0')).reverse with
  | [] => ".0"
  | kept => "." ++ String.ofList kept

/-- A time of day at the front, in normal form, and what follows it. -/
def clockTime? : List Char → Option (String × List Char)
  | a :: b :: ':' :: c :: d :: r => do
    let hour ← twoDigits? 23 a b
    let minute ← twoDigits? 59 c d
    let whole := s!"{zeroPadded 2 hour}:{zeroPadded 2 minute}"
    match r with
    | ':' :: e :: f :: r =>
      let second ← twoDigits? 60 e f
      let whole := s!"{whole}:{zeroPadded 2 second}"
      match r with
      | '.' :: r =>
        let digits := r.takeWhile Char.isDigit
        if digits.isEmpty then none
        else some (whole ++ fraction digits, r.dropWhile Char.isDigit)
      | r => some (whole, r)
    | ':' :: _ => none
    | r => some (whole, r)
  | _ => none

/-- An offset from universal time that makes up all of the text. -/
def offset? : List Char → Option String
  | [] => some ""
  | ['Z'] => some "Z"
  | ['z'] => some "Z"
  | [sign, a, b, ':', c, d] => do
    let hour ← twoDigits? 23 a b
    let minute ← twoDigits? 59 c d
    let rest := s!"{zeroPadded 2 hour}:{zeroPadded 2 minute}"
    if sign = '+' then some ("+" ++ rest)
    else if sign = '-' then some ((if hour = 0 ∧ minute = 0 then "+" else "-") ++ rest)
    else none
  | _ => none

/-- The normal form of a date, a time, or both. -/
def date? (s : List Char) : Option String :=
  match day? s with
  | some (day, []) => some day
  | some (day, separator :: r) =>
    if separator = 'T' || separator = 't' || separator = ' ' then
      match clockTime? r with
      | some (time, r) => (offset? r).map fun offset => day ++ "T" ++ time ++ offset
      | none => none
    else none
  | none =>
    match clockTime? s with
    | some (time, []) => some time
    | _ => none

end Playhead.Toml

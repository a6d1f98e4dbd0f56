import Playhead.Toml.Value
import Playhead.Toml.Date

/-!
# Values without quotes

Booleans, numbers and dates are runs of characters that stand by themselves. An integer may use
another base behind `0x`, `0o` or `0b`; digits may be grouped by single underscores; a decimal
number starts with a zero only if that is its whole part.

What a run is gets decided by its shape, and what number it writes only then. So there are numbers
that are well formed and cannot be read (`Value.unreadable`), while a run of no known shape is no
value at all.
-/

namespace Playhead.Toml

/-! ## Digits -/

/-- The value of a digit in bases up to sixteen. -/
def digitValue (c : Char) : Nat :=
  if c.isDigit then c.toNat - '0'.toNat else c.toLower.toNat - 'a'.toNat + 10

/-- The number that digits write in a base. -/
def number (base : Nat) (digits : List Char) : Nat :=
  digits.foldl (fun n c => base * n + digitValue c) 0

def isBinaryDigit (c : Char) : Bool := c == '0' || c == '1'

def isOctalDigit (c : Char) : Bool := '0' ≤ c && c ≤ '7'

def isHexDigit (c : Char) : Bool :=
  c.isDigit || ('a' ≤ c && c ≤ 'f') || ('A' ≤ c && c ≤ 'F')

/-- Whether each underscore has a digit on both sides; `before` says whether one at the front
would have what it needs before it. -/
def isGrouped (isDigit : Char → Bool) (before : Bool) : List Char → Bool
  | [] => true
  | ['_'] => false
  | '_' :: c :: r => before && isDigit c && isGrouped isDigit true r
  | c :: r => isGrouped isDigit (isDigit c) r

/-- The digits without the underscores that group them. -/
def ungrouped (s : List Char) : List Char := s.filter (· != '_')

/-- A sign, if there is one: whether it is negative, and the rest. -/
def sign : List Char → Bool × List Char
  | '-' :: r => (true, r)
  | '+' :: r => (false, r)
  | s => (false, s)

/-- Whether a zero stands in front of further digits. -/
def hasLeadingZero : List Char → Bool
  | '0' :: c :: _ => c.isDigit || c == '_'
  | _ => false

/-! ## Integers -/

/-- Integers that documents may hold: those of a 128-bit word, signed or not. -/
def isRepresentable (n : Int) : Bool :=
  -0x80000000000000000000000000000000 ≤ n && n ≤ 0xffffffffffffffffffffffffffffffff

/-- The integer that digits of a base write, if it can be read. -/
def integerOf (base : Nat) (isDigit : Char → Bool) (negative : Bool) (digits : List Char) : Value :=
  let n : Int := if negative then -(number base digits : Int) else number base digits
  if !digits.isEmpty && digits.all isDigit && isRepresentable n then .integer n else .unreadable

/-- An integer in another base, behind the mark of the base. -/
def basedInteger? (base : Nat) (isDigit : Char → Bool) (s : List Char) : Option Value :=
  if s.all (fun c => isDigit c || c == '_') && isGrouped isDigit false s then
    some (integerOf base isDigit false (ungrouped s))
  else none

/-- A decimal integer behind its sign. Of its shape are digits, and digits with an underscore
behind them and anything further on: the digits on both sides of underscores may be hexadecimal
here, which leaves the number unreadable. -/
def decimalInteger? (signed negative : Bool) (s : List Char) : Option Value :=
  let behind := s.dropWhile Char.isDigit
  if (behind.isEmpty || behind.head? == some '_') && !s.isEmpty && !hasLeadingZero s &&
      isGrouped isHexDigit signed s then
    some (integerOf 10 Char.isDigit negative (ungrouped s))
  else none

/-! ## Floating-point numbers -/

def isExponentMark (c : Char) : Bool := c == 'e' || c == 'E'

/-- The power of ten behind an exponent mark; none if there is no mark. -/
def exponent? : List Char → Option Int
  | [] => some 0
  | c :: s =>
    let (negative, r) := sign s
    if !isExponentMark c || r.isEmpty || !r.all Char.isDigit then none
    else some (if negative then -(number 10 r : Int) else number 10 r)

/-- A number with a fraction or an exponent, without underscores and behind its sign. It cannot be
read if it is beyond the range of the format. -/
def pointNumber? (negative : Bool) (s : List Char) : Option Value := do
  let whole := s.takeWhile Char.isDigit
  let (places, behind) ←
    match s.dropWhile Char.isDigit with
    | '.' :: r =>
      if (r.takeWhile Char.isDigit).isEmpty then none
      else some (r.takeWhile Char.isDigit, r.dropWhile Char.isDigit)
    | r => some ([], r)
  let exponent ← exponent? behind
  if whole.isEmpty then none
  else
    match Binary64.ofDecimal negative (number 10 (whole ++ places)) (exponent - places.length) with
    | .infinite _ => some .unreadable
    | x => some (.float x)

/-- A number with a fraction or an exponent, behind its sign. -/
def float? (signed negative : Bool) (s : List Char) : Option Value :=
  if !hasLeadingZero s && isGrouped Char.isDigit signed s then pointNumber? negative (ungrouped s)
  else none

/-! ## All values -/

/-- The value that a run of characters without quotes writes. Behind leading digits, a dash or a
colon makes it a date or a time, and a point or an exponent mark anywhere makes it a floating-point
number. -/
def atom? (s : List Char) : Option Value :=
  match s with
  | ['t', 'r', 'u', 'e'] => some (.boolean true)
  | ['f', 'a', 'l', 's', 'e'] => some (.boolean false)
  | '0' :: 'x' :: r => basedInteger? 16 isHexDigit r
  | '0' :: 'o' :: r => basedInteger? 8 isOctalDigit r
  | '0' :: 'b' :: r => basedInteger? 2 isBinaryDigit r
  | s =>
    let (negative, r) := sign s
    let signed := r.length < s.length
    let behind := r.dropWhile Char.isDigit
    if r == ['i', 'n', 'f'] then some (.float (.infinite negative))
    else if r == ['n', 'a', 'n'] then some (.float .nan)
    else if behind.head? == some '-' || behind.head? == some ':' then (date? s).map .date
    else if behind.any fun c => c == '.' || isExponentMark c then float? signed negative r
    else decimalInteger? signed negative r

end Playhead.Toml

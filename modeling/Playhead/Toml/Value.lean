import Playhead.Decimal.Binary64

/-!
# Values of a TOML document

What a document comes to once its tables are put together. Dates and times keep only their
normal text, since nothing is computed with them. Tables keep their keys in the order of the
document.
-/

namespace Playhead.Toml

inductive Value where
  | string (text : String)
  | integer (n : Int)
  | float (x : Binary64)
  /-- What is written like a number and is none: it lacks digits, has some that its base does not
  know, or is too large. Nothing that looks at it can use it. -/
  | unreadable
  | boolean (b : Bool)
  /-- A date, a time, or both, in normal form. -/
  | date (text : String)
  | array (items : List Value)
  | table (entries : List (String × Value))
  deriving Repr

/-- The value at a key. -/
def lookup (key : String) : List (String × Value) → Option Value
  | [] => none
  | (k, v) :: rest => if k = key then some v else lookup key rest

namespace Value

mutual

/-- Whether every number inside a value can be read, and every integer satisfies `ok`. -/
def allIntegers (ok : Int → Bool) : Value → Bool
  | integer n => ok n
  | unreadable => false
  | array items => allIntegersIn ok items
  | table entries => allIntegersOf ok entries
  | _ => true

/-- `allIntegers` for the items of an array. -/
def allIntegersIn (ok : Int → Bool) : List Value → Bool
  | [] => true
  | v :: rest => v.allIntegers ok && allIntegersIn ok rest

/-- `allIntegers` for the entries of a table. -/
def allIntegersOf (ok : Int → Bool) : List (String × Value) → Bool
  | [] => true
  | (_, v) :: rest => v.allIntegers ok && allIntegersOf ok rest

end

/-- Whether every number inside a value can be read. -/
def isReadable (v : Value) : Bool := v.allIntegers fun _ => true

end Value

end Playhead.Toml

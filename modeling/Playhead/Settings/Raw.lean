import Playhead.Word
import Playhead.Settings.Path
import Playhead.Toml.Document
import Playhead.Decimal.Shortest

/-!
# Configured values and their conversions

Values as files and environment variables give them, before it is known what they are for. A value
is converted by what a setting needs: numbers stand for truth values, texts for numbers, and so
on; each conversion is `none` where nothing fits. Tables are merged entry by entry, and what is
merged later wins.
-/

namespace Playhead

/-- A configured value. -/
inductive Raw where
  /-- Nothing: what stands at places of a list that nobody has set. -/
  | nil
  | boolean (b : Bool)
  | integer (n : Int)
  | float (x : Binary64)
  | text (s : String)
  | list (items : List Raw)
  | table (entries : List (String × Raw))
  deriving Repr

namespace Raw

/-! ## Texts that write numbers -/

/-- Digits without the exponent and the sign in front of them. -/
def decimalDigits? (s : List Char) : Option Nat :=
  if s.isEmpty || !s.all Char.isDigit then none else some (Toml.number 10 s)

/-- A whole number that fits a signed word. -/
def readSigned? (s : List Char) : Option Int :=
  let (negative, r) := Toml.sign s
  (decimalDigits? r).bind fun n =>
    let n : Int := if negative then -(n : Int) else n
    if fitsSigned n then some n else none

/-- A whole number that fits a word; a plus sign may stand before it. -/
def readWord? (s : List Char) : Option Nat :=
  let r := match s with
    | '+' :: r => r
    | s => s
  (decimalDigits? r).bind fun n => if n < UInt64.size then some n else none

/-- The power of ten behind an exponent mark; none if there is no mark. -/
def readExponent? : List Char → Option Int
  | [] => some 0
  | _ :: s =>
    let (negative, r) := Toml.sign s
    (decimalDigits? r).map fun n => if negative then -(n : Int) else n

/-- A floating-point number. Digits may be missing on one side of the point. -/
def readFloat? (s : List Char) : Option Binary64 :=
  let (negative, r) := Toml.sign s
  let word := String.ofList (r.map Char.toLower)
  if word == "inf" || word == "infinity" then some (.infinite negative)
  else if word == "nan" then some .nan
  else
    let whole := r.takeWhile Char.isDigit
    let behind := r.dropWhile Char.isDigit
    let (places, behind) :=
      match behind with
      | '.' :: r => (r.takeWhile Char.isDigit, r.dropWhile Char.isDigit)
      | r => ([], r)
    let digits := whole ++ places
    if digits.isEmpty || !(behind.take 1).all Toml.isExponentMark then none
    else
      (readExponent? behind).map fun exponent =>
        .ofDecimal negative (Toml.number 10 digits) (exponent - places.length)

/-- The value of an environment variable. -/
def ofVariable (s : String) : Raw :=
  let word := String.ofList (s.toList.map Char.toLower)
  if word == "true" then boolean true
  else if word == "false" then boolean false
  else
    match readSigned? s.toList with
    | some n => integer n
    | none =>
      match readFloat? s.toList with
      | some x => float x
      | none => text s

/-! ## Values of files -/

mutual

/-- The value that a document gives. -/
def ofToml : Toml.Value → Raw
  | .unreadable => nil
  | .string s => text s
  | .integer n => integer n
  | .float x => float x
  | .boolean b => boolean b
  | .date s => text s
  | .array items => list (ofItems items)
  | .table entries => table (ofEntries entries)

def ofItems : List Toml.Value → List Raw
  | [] => []
  | v :: rest => ofToml v :: ofItems rest

def ofEntries : List (String × Toml.Value) → List (String × Raw)
  | [] => []
  | (k, v) :: rest => (k, ofToml v) :: ofEntries rest

end

/-! ## Conversions -/

/-- Words that stand for a truth value. -/
def truth? (s : String) : Option Bool :=
  let word := String.ofList (s.toList.map Char.toLower)
  if word == "true" || word == "on" || word == "yes" then some true
  else if word == "false" || word == "off" || word == "no" then some false
  else none

/-- As a number that fits a word. Fractions are rounded and large floating-point numbers held at
the greatest word. -/
def toWord? : Raw → Option Nat
  | boolean b => some b.toNat
  | integer n => if 0 ≤ n then some n.toNat else none
  | float x => some (x.toNatClamped (UInt64.size - 1))
  | text s =>
    match truth? s with
    | some b => some b.toNat
    | none => readWord? s.toList
  | _ => none

/-- As a truth value; a number is true unless it is zero. -/
def toBool? : Raw → Option Bool
  | boolean b => some b
  | integer n => some (n != 0)
  | float x => some x.isNonzero
  | text s => if s == "1" then some true else if s == "0" then some false else truth? s
  | _ => none

def toText? : Raw → Option String
  | boolean b => some (toString b)
  | integer n => some (toString n)
  | float x => some x.text
  | text s => some s
  | _ => none

/-- As the name of one of several choices: a text, or a table with that one key. -/
def toName? : Raw → Option String
  | text s => some s
  | table [(key, _)] => some key
  | _ => none

/-! ## Merging -/

/-- The value at a key. -/
def lookup (key : String) : List (String × Raw) → Option Raw
  | [] => none
  | (k, v) :: rest => if k = key then some v else lookup key rest

/-- Put a value at a key, in the place of the one that is there. -/
def put (key : String) (v : Raw) : List (String × Raw) → List (String × Raw)
  | [] => [(key, v)]
  | (k, w) :: rest => if k = key then (k, v) :: rest else (k, w) :: put key v rest

/-- The entries of a table; nothing else has any. -/
def entries : Raw → List (String × Raw)
  | table entries => entries
  | _ => []

mutual

/-- Merge a value over another one: tables entry by entry, all else as a whole. -/
def mergeOnto (v : Raw) (below : Option Raw) : Raw :=
  match v with
  | table es => table (mergeAllOnto es ((below.map entries).getD []))
  | v => v

/-- Merge entries over those of a table. -/
def mergeAllOnto (es : List (String × Raw)) (below : List (String × Raw)) : List (String × Raw) :=
  match es with
  | [] => below
  | (k, v) :: rest => mergeAllOnto rest (put k (v.mergeOnto (lookup k below)) below)

end

/-- The items of a list; nothing else has any. -/
def items : Raw → List Raw
  | list items => items
  | _ => []

/-- Extend a list so that it has an item at a place, and find that item. Places behind the end are
reached by adding items at the end, places before the front by adding some there. -/
def reach (i : Int) (items : List Raw) : List Raw × Nat :=
  if 0 ≤ i then (items ++ List.replicate (i.toNat + 1 - items.length) nil, i.toNat)
  else if 0 ≤ items.length + i then (items, (items.length + i).toNat)
  else (List.replicate (-(items.length + i)).toNat nil ++ items, 0)

/-- Merge a value over the one at the end of a path, which starts at `below`. Values on the way that
are no tables or no lists give way to what the path needs there. -/
def assign (v : Raw) (path : List PathStep) (below : Option Raw) : Raw :=
  match path with
  | [] => v.mergeOnto below
  | .key name :: rest =>
    let es := (below.map entries).getD []
    table (put name (v.assign rest (lookup name es)) es)
  | .place i :: rest =>
    let (items, place) := reach i ((below.map items).getD [])
    list (items.modify place fun item => v.assign rest (some item))

end Raw

end Playhead

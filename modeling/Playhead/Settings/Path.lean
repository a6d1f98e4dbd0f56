import Playhead.Word
import Playhead.Toml.Syntax

/-!
# Paths to configured values

A name such as `ui.time_fields[0]` says where a configured value belongs: it starts with a key and
goes on through keys and places in lists. A negative place counts from the end of a list. A name
that is not written like this is one key, whatever it holds.
-/

namespace Playhead

/-- One step on the way to a configured value. -/
inductive PathStep where
  /-- To the entry of a table. -/
  | key (name : String)
  /-- To the item of a list. -/
  | place (i : Int)
  deriving DecidableEq, Repr

namespace PathStep

/-- A place in brackets: digits, perhaps with a minus sign, between any blanks. It has to fit a
signed word. -/
def ofPlace? (s : List Char) : Option PathStep :=
  let s := Toml.skipSpace s
  let (negative, r) :=
    match s with
    | '-' :: r => (true, r)
    | s => (false, s)
  let digits := r.takeWhile Char.isDigit
  let n : Int :=
    if negative then -(Toml.number 10 digits : Int) else Toml.number 10 digits
  if digits.isEmpty || !(Toml.skipSpace (r.dropWhile Char.isDigit)).isEmpty || !fitsSigned n then
    none
  else some (.place n)

/-- The steps that a name takes; in front of its first key stands a point as well. -/
def ofName? (s : List Char) : Option (List PathStep) :=
  match s with
  | [] => some []
  | '.' :: r =>
    if (r.takeWhile Toml.isBareKey).isEmpty then none
    else
      (ofName? (r.dropWhile Toml.isBareKey)).map
        (.key (String.ofList (r.takeWhile Toml.isBareKey)) :: ·)
  | '[' :: r =>
    match _h : r.dropWhile (· != ']') with
    | [] => none
    | _ :: behind =>
      (ofPlace? (r.takeWhile (· != ']'))).bind fun step =>
        (ofName? behind).map (step :: ·)
  | _ => none
termination_by s.length
decreasing_by
  · have := Toml.dropWhile_length_le Toml.isBareKey r
    simp only [List.length_cons]
    omega
  · have := Toml.dropWhile_length_le (· != ']') r
    rw [_h, List.length_cons] at this
    simp only [List.length_cons]
    omega

/-- The path that a name stands for. -/
def path (name : List Char) : List PathStep :=
  (ofName? ('.' :: name)).getD [.key (String.ofList name)]

end PathStep

end Playhead

/-!
# Libraries for configuration

The program names the sources of its settings and takes settings from what the sources come to. All
between these, the reading of files, the merging of sources and the conversion of values, is the
matter of a library, and this is what is needed of one. `Library.standard` is one that can be run.
-/

namespace Playhead

structure Library where
  /-- Configured values, before it is known what they are for. -/
  Value : Type
  /-- What is configured where there is no source. -/
  empty : Value
  /-- What the file at a path comes to, given the files that there are. One that need not exist and
  does not comes to what is empty; there is nothing for one that cannot be used. -/
  file? : (String → Option String) → String → Option Value
  /-- The settings among the variables of an environment, with the keys that they stand for. -/
  ofEnvironment : List (String × String) → List (String × Value)
  /-- Merge a value at a key over what is configured. Points divide the parts of a key. -/
  assign : Value → String → Value → Value
  /-- The entry of a table. Nothing else has any. -/
  entry? : Value → String → Option Value
  /-- The fields of a structure by their keys and places. -/
  fields? : Value → Option (String → Nat → Option Value)
  /-- A value as a number that fits a word. -/
  word? : Value → Option Nat
  bool? : Value → Option Bool
  text? : Value → Option String
  items? : Value → Option (List Value)
  /-- A value as the name of one of several choices. -/
  name? : Value → Option String

/-- Merge values at their keys over what is configured, one after the other. -/
def Library.assignAll (library : Library) (below : library.Value)
    (values : List (String × library.Value)) : library.Value :=
  values.foldl (fun below (key, v) => library.assign below key v) below

@[simp] theorem Library.assignAll_cons (library : Library) (below : library.Value) (key : String)
    (v : library.Value) (rest : List (String × library.Value)) :
    library.assignAll below ((key, v) :: rest) =
      library.assignAll (library.assign below key v) rest := rfl

end Playhead

import Playhead.Settings.Library
import Playhead.Settings.Raw

/-!
# The standard library for configuration

Of the formats that a configuration file can have this library knows TOML, by the extension of the
file's name; a file with another extension is left alone, and for a name that no file has it is
tried to append the extension. The keys of a file and the names of variables are paths alike.
-/

namespace Playhead

namespace Raw

/-! ## Files -/

/-- What follows the last point in the name of a file. A point in front is no such point. -/
def extension? (path : String) : Option String :=
  let name := path.toList.reverse.takeWhile (· != '/')
  match name.dropWhile (· != '.') with
  | '.' :: _ :: _ => some (String.ofList (name.takeWhile (· != '.')).reverse)
  | _ => none

/-- The text of the configuration file that a path leads to. -/
def fileText? (files : String → Option String) (path : String) : Option String :=
  match files path with
  | some document => if extension? path = some "toml" then some document else none
  | none => files (path ++ ".toml")

/-- What the entries of a document come to. Their keys are paths, but keys of tables in them are
plain keys. -/
def ofFile (entries : List (String × Raw)) : Raw :=
  entries.foldl (fun below (key, v) => v.assign (PathStep.path key.toList) (some below)) (.table [])

/-- What a file comes to: nothing without a file. It cannot be used if it is no document, has a
number that cannot be read or has an integer wider than a signed word. -/
def file? (files : String → Option String) (path : String) : Option Raw :=
  match fileText? files path with
  | none => some (.table [])
  | some document =>
    (Toml.parse? .extended document).bind fun entries =>
      if Toml.Value.allIntegersOf fitsSigned entries then some (ofFile (ofEntries entries))
      else none

/-! ## Variables -/

/-- The small letter of a character. Besides the capitals, the Kelvin sign has one. -/
def lowered (c : Char) : Char := if c = '\u212a' then 'k' else c.toLower

/-- Double underscores divide the parts of a variable's name as points do those of a key. -/
def dotted : List Char → List Char
  | '_' :: '_' :: r => '.' :: dotted r
  | c :: r => c :: dotted r
  | [] => []

/-- The key that the name of a variable stands for, if it is that of a setting. -/
def settingKey? (name : String) : Option String :=
  let name := name.toList.map lowered
  let mark := "playsim__".toList
  if mark.isPrefixOf name then some (String.ofList (dotted (name.drop mark.length))) else none

/-- The settings among the variables of an environment. -/
def ofEnvironment (environment : List (String × String)) : List (String × Raw) :=
  environment.filterMap fun (name, value) => (settingKey? name).map (·, ofVariable value)

/-! ## Structures -/

/-- The fields of a structure. It is a table, or a list in order. -/
def fields? : Raw → Option (String → Nat → Option Raw)
  | table entries => some fun key _ => lookup key entries
  | list items => some fun _ place => items[place]?
  | _ => none

def items? : Raw → Option (List Raw)
  | list items => some items
  | _ => none

end Raw

/-- The library that the program runs with. -/
def Library.standard : Library where
  Value := Raw
  empty := .table []
  file? := Raw.file?
  ofEnvironment := Raw.ofEnvironment
  assign below key v := v.assign (PathStep.path key.toList) (some below)
  entry? v key := Raw.lookup key v.entries
  fields? := Raw.fields?
  word? := Raw.toWord?
  bool? := Raw.toBool?
  text? := Raw.toText?
  items? := Raw.items?
  name? := Raw.toName?

end Playhead

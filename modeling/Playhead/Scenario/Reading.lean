import Playhead.Word
import Playhead.Scenario.Basic
import Playhead.Toml.Document

/-!
# Reading scenarios

Scenarios are TOML documents. A record is a table, or an array with its fields in order; a date
in the place of a record gives none of its fields. Keys that mean nothing are ignored, but what
they stand for must be readable; items of an array behind the last field are not even looked at.
Everything that does not fit makes the whole document malformed, and what fits still has to be
valid.
-/

namespace Playhead

/-- Why a text gives no scenario. -/
inductive ReadError where
  /-- No document, or one that does not describe a scenario. -/
  | malformed
  | flawed (flaw : Flaw)
  deriving DecidableEq, Repr

namespace Toml.Value

/-- The fields of a record, each asked for by its key and its place. -/
def record? : Value → Option (String → Nat → Option Value)
  | table entries =>
    if (table entries).isReadable then some fun key _ => lookup key entries else none
  | array items => some fun _ place => items[place]?
  | date _ => some fun _ _ => none
  | _ => none

def string? : Value → Option String
  | string text => some text
  | _ => none

/-- A whole number that satisfies a bound. -/
def integer? (ok : Int → Bool) : Value → Option Int
  | integer n => if ok n then some n else none
  | _ => none

/-- A whole number from zero up to `most`. -/
def natural? (most : Nat) (v : Value) : Option Nat :=
  (v.integer? fun n => 0 ≤ n && n ≤ most).map Int.toNat

def signed? (v : Value) : Option Int := v.integer? fitsSigned

def millis? (v : Value) : Option Millis := (v.natural? lastMillis).map .ofNat

/-- A label: its text, or a table with that one key and nothing in it. -/
def label? : Value → Option String
  | string text => some text
  | table [(key, table [])] => some key
  | _ => none

/-- Read a field if it is there. -/
def optional {α : Type} (field : Option Value) (read : Value → Option α) : Option (Option α) :=
  match field with
  | some v => (read v).map some
  | none => some none

end Toml.Value

open Toml Toml.Value

namespace Track

def ofToml? (v : Value) : Option Track := do
  let field ← v.record?
  let url ← optional (field "url" 0) string?
  let offset ← optional (field "offset" 1) millis?
  let duration ← optional (field "duration" 2) millis?
  let repeatCount ←
    optional (field "repeat_count" 3) (integer? fun n => -0x80000000 ≤ n && n ≤ 0x7fffffff)
  return {
    url := url.getD ""
    offset := offset.getD .zero
    duration := duration.getD .zero
    repeatCount := repeatCount.getD 0 }

end Track

namespace ContentSpec

def ofToml? (v : Value) : Option ContentSpec := do
  let field ← v.record?
  let length ← optional (field "length" 0) signed?
  let delay ← optional (field "initial_delay" 1) millis?
  let failAfter ← optional (field "fail_after" 2) signed?
  return { length := length.getD (-1), delay := delay.getD .zero, failAfter := failAfter.getD (-1) }

end ContentSpec

namespace Expectation

/-- An expectation from its fields. -/
def ofFields? (field : String → Nat → Option Value) : Option Expectation := do
  let lifecycle ← optional (field "state" 0) fun v => v.label?.bind Lifecycle.ofLabel?
  let event ← optional (field "event" 1) fun v => v.label?.bind Event.ofLabel?
  let loading ← optional (field "track_state" 2) fun v => v.label?.bind Loading.ofLabel?
  let position ← optional (field "position" 3) (natural? lastMillis)
  let plays ← optional (field "completed_plays" 4) (natural? maxPlays)
  let clock ← optional (field "clock" 5) (natural? lastMillis)
  return { lifecycle, event, loading, position, plays, clock }

end Expectation

namespace Step

/-- How many fields a step of each kind has, besides its kind. -/
def arity : String → Nat
  | "seek" => 1
  | "advance" | "run" => 2
  | "expect" => 6
  | _ => 0

/-- A step from its kind and its fields. -/
def ofFields? (kind : String) (field : String → Nat → Option Value) : Option Step :=
  match kind with
  | "play" => some (.command .play)
  | "pause" => some (.command .pause)
  | "rewind" => some (.command .rewind)
  | "finish" => some (.command .finish)
  | "clear-repeat" => some (.command .clearRepeat)
  | "seek" => do
    let offset ← (← field "offset" 0).signed?
    return .command (.seek offset)
  | "advance" => do
    let budget ← (← field "ms" 0).natural? lastMillis
    let times ← optional (field "times" 1) (natural? maxPlays)
    return .advance budget (times.getD 1)
  | "run" => do
    let chunk ← (← field "step" 0).natural? lastMillis
    let budget ← (← field "budget" 1).natural? lastMillis
    return .run chunk budget
  | "expect" => (Expectation.ofFields? field).map .expect
  | _ => none

/-- A step is a table that names its kind under `op`, or an array that starts with its kind and has
no more than its fields. Every number in it, used or not, must be readable and no integer wider
than a word. -/
def ofToml? (v : Value) : Option Step :=
  if !v.allIntegers fitsWord then none
  else
    match v with
    | .table entries =>
      ((lookup "op" entries).bind string?).bind fun kind =>
        ofFields? kind fun key _ => lookup key entries
    | .array (.string kind :: fields) =>
      if arity kind < fields.length then none else ofFields? kind fun _ place => fields[place]?
    | _ => none

end Step

namespace Scenario

/-- Whether a key of a document means something. -/
def isKnown (key : String) : Bool :=
  key == "name" || key == "track" || key == "content" || key == "steps"

/-- The scenario that the entries of a document describe. -/
def ofToml? (entries : List (String × Value)) : Option Scenario := do
  if !entries.all fun (key, v) => isKnown key || v.isReadable then none
  let name ← optional (lookup "name" entries) string?
  let track ← optional (lookup "track" entries) Track.ofToml?
  let content ← optional (lookup "content" entries) ContentSpec.ofToml?
  let steps ← optional (lookup "steps" entries) fun
    | .array items => items.mapM Step.ofToml?
    | _ => none
  return { name, track := track.getD {}, content := content.getD {}, steps := steps.getD [] }

/-- The scenario that a text describes. -/
def ofText? (text : String) : Option Scenario := (Toml.parse? .passed text).bind ofToml?

/-- Read a scenario and check that it is valid. How texts are read is the matter of `read?`. -/
def parseWith (read? : String → Option Scenario) (text : String) : Except ReadError Scenario :=
  match read? text with
  | none => .error .malformed
  | some s =>
    match s.validate with
    | .ok () => .ok s
    | .error flaw => .error (.flawed flaw)

/-- Read a scenario from a TOML document and check that it is valid. -/
def parse (text : String) : Except ReadError Scenario := parseWith ofText? text

end Scenario

end Playhead

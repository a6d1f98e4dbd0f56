import Playhead.Text
import Playhead.Track

/-!
# Scenarios

A scenario names a track, describes the content behind it and lists the steps to take. This module
has the scenario as data, the labels of its steps, and the validation that a scenario passes
before it is used. `Scenario.validate` names the first flaw in a fixed order: the length of the
content, its failure limit, then the steps from first to last.
-/

namespace Playhead

/-- Content as scenarios write it: `-1` stands for no end and for no failure. -/
structure ContentSpec where
  length : Int := -1
  delay : Millis := .zero
  failAfter : Int := -1
  deriving DecidableEq, Repr

/-- Conditions on the player after the steps before. What is not set is not checked. -/
structure Expectation where
  lifecycle : Option Lifecycle := none
  /-- What the most recent advance reported. -/
  event : Option Event := none
  loading : Option Loading := none
  position : Option Nat := none
  plays : Option Nat := none
  /-- Time spent so far. -/
  clock : Option Nat := none
  deriving DecidableEq, Repr

/-- One scripted step. -/
inductive Step where
  | command (command : Command)
  /-- Advance by `budget`, `times` times. -/
  | advance (budget times : Nat)
  /-- Advance in chunks until the track ends or the budget is spent. -/
  | run (chunk budget : Nat)
  | expect (expectation : Expectation)
  deriving DecidableEq, Repr

/-- A scripted use of one track. -/
structure Scenario where
  name : Option String := none
  track : Track := {}
  content : ContentSpec := {}
  steps : List Step := []
  deriving DecidableEq, Repr

/-- What makes a scenario meaningless. -/
inductive Flaw where
  | contentLength (given : Int)
  | contentFailAfter (given : Int)
  | runChunk (step : Nat)
  | advanceTimes (step : Nat)
  deriving DecidableEq, Repr

namespace Flaw

def message : Flaw → String
  | contentLength given => s!"content.length must be -1 or >= 0, got {given}"
  | contentFailAfter given => s!"content.fail_after must be -1 or >= 0, got {given}"
  | runChunk step => s!"step {step}: run.step must be >= 1"
  | advanceTimes step => s!"step {step}: advance.times must be >= 1"

end Flaw

namespace Step

/-- How a step is written in transcripts. -/
def label : Step → String
  | command c => c.label
  | advance budget _ => s!"advance {budget}"
  | run chunk budget => s!"run {chunk}/{budget}"
  | expect _ => "expect"

/-- What is wrong with a step at the given place, if anything. -/
def flaw? (index : Nat) : Step → Option Flaw
  | run 0 _ => some (.runChunk index)
  | advance _ 0 => some (.advanceTimes index)
  | _ => none

/-- The first flaw of steps numbered from `index`. -/
def firstFlaw? (index : Nat) : List Step → Option Flaw
  | [] => none
  | s :: rest => (s.flaw? index).or (firstFlaw? (index + 1) rest)

end Step

namespace ContentSpec

/-- A count that `-1` switches off. -/
def limit (flaw : Int → Flaw) (given : Int) : Except Flaw (Option Millis) :=
  if given = -1 then .ok none
  else if 0 ≤ given then .ok (some (.ofNat given.toNat))
  else .error (flaw given)

/-- The content that is described, or the first reason why it describes none. -/
def resolve (spec : ContentSpec) : Except Flaw Content := do
  let length ← limit .contentLength spec.length
  let failAfter ← limit .contentFailAfter spec.failAfter
  return { length := length.elim .unbounded .finite, delay := spec.delay, failAfter }

end ContentSpec

namespace Scenario

/-- Accept a scenario, or name its first flaw. -/
def validate (s : Scenario) : Except Flaw Unit := do
  let _ ← s.content.resolve
  match Step.firstFlaw? 0 s.steps with
  | some flaw => .error flaw
  | none => .ok ()

/-- The name used in reports: the scenario's own unless it is blank, else the address of its
track. -/
def title (s : Scenario) : String :=
  match s.name with
  | some name => if name.toList.all isBlank then fallback else name
  | none => fallback
where
  fallback := if s.track.url.isEmpty then "untitled" else s.track.url

end Scenario

end Playhead

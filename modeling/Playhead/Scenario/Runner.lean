import Playhead.Scenario.Basic
import Playhead.Player.Advance

/-!
# Running scenarios

A runner applies the steps of a scenario to a player and keeps the logical clock. Every action
leaves one entry; an expectation that does not hold leaves none and changes nothing. There is no
answer when time never stops passing, which a validated scenario can reach only through a window
whose end coincides with its start, or when the clock passes the last instant.
-/

namespace Playhead

/-- What a recorded action came to. -/
inductive Outcome where
  | command (effect : Bool)
  | advance (report : Report)
  /-- An expectation that held. -/
  | checked
  deriving DecidableEq, Repr

/-- One entry of a transcript. -/
structure Entry where
  step : Nat
  /-- The clock after the action. -/
  clock : Nat
  label : String
  outcome : Outcome
  position : Nat
  lifecycle : Lifecycle
  deriving DecidableEq, Repr

/-- One way in which a runner differs from an expectation. -/
inductive Problem where
  | lifecycle (got expected : Lifecycle)
  | event (got : Option Event) (expected : Event)
  | loading (got expected : Loading)
  | position (got expected : Nat)
  | plays (got expected : Nat)
  | clock (got expected : Nat)
  deriving DecidableEq, Repr

/-- An expectation that did not hold: the step and every problem with it. -/
structure Unmet where
  step : Nat
  problems : List Problem
  deriving DecidableEq, Repr

namespace Problem

def text : Problem → String
  | lifecycle got expected => s!"state is {got.label}, expected {expected.label}"
  | event got expected =>
    "last event is " ++ got.elim "nothing" Event.label ++ ", expected " ++ expected.label
  | loading got expected => s!"track state is {got.label}, expected {expected.label}"
  | position got expected => s!"position is {got}, expected {expected}"
  | plays got expected => s!"completed plays is {got}, expected {expected}"
  | clock got expected => s!"clock is {got}, expected {expected}"

end Problem

namespace Unmet

/-- The problems alone. -/
def detail (u : Unmet) : String := "; ".intercalate (u.problems.map Problem.text)

def message (u : Unmet) : String := s!"step {u.step}: expectation failed: {u.detail}"

end Unmet

/-- A player under a clock. -/
structure Runner where
  player : Player
  clock : Nat := 0
  /-- What the most recent advance reported. -/
  lastEvent : Option Event := none
  deriving DecidableEq, Repr

namespace Runner

/-- A runner at the beginning of a scenario. -/
def ofScenario (s : Scenario) : Except Flaw Runner := do
  let content ← s.content.resolve
  return { player := .ofTrack s.track content }

/-- The entry for an action that has just been carried out. -/
def entry (r : Runner) (step : Nat) (label : String) (outcome : Outcome) : Entry :=
  { step, clock := r.clock, label, outcome, position := r.player.position,
    lifecycle := r.player.lifecycle }

/-- Advance once. -/
def advance (r : Runner) (budget : Nat) : Except Fault (Report × Runner) := do
  let (report, player) ← orEndless (r.player.advance budget)
  let clock ← addMillis r.clock report.elapsed
  return (report, { player, clock, lastEvent := some report.event })

/-- Advance `times` times; `done` has the entries so far, newest first. -/
def advanceTimes (step : Nat) (label : String) (budget : Nat) :
    Nat → Runner → List Entry → Except Fault (Runner × List Entry)
  | 0, r, done => .ok (r, done.reverse)
  | times + 1, r, done =>
    match r.advance budget with
    | .error fault => .error fault
    | .ok (report, r) =>
      advanceTimes step label budget times r (r.entry step label (.advance report) :: done)

/-- Chunks in a row that may take no time. A player changes at most so often without time passing:
it becomes ready, starts a pass over, and ends. -/
def patience : Nat := 3

/-- Advance in chunks while `left` of the budget remains and the track has not ended; `done` has
the entries so far, newest first. -/
def runChunks (step : Nat) (label : String) (chunk left waiting : Nat) (r : Runner)
    (done : List Entry) : Except Fault (Runner × List Entry) :=
  if left = 0 || r.player.isEnded then .ok (r, done.reverse)
  else
    match r.advance (min chunk left) with
    | .error fault => .error fault
    | .ok (report, r) =>
      let done := r.entry step label (.advance report) :: done
      if report.elapsed = 0 then
        match waiting with
        | 0 => .error .endless
        | waiting + 1 => runChunks step label chunk left waiting r done
      else runChunks step label chunk (left - report.elapsed) patience r done
termination_by (left, waiting)
decreasing_by
  · exact Prod.Lex.right _ (Nat.lt_succ_self _)
  · refine Prod.Lex.left _ _ ?_
    have : ¬left = 0 := by simp_all
    omega

/-- How the runner differs from an expectation: one problem for each field that is set and
differs. -/
def problems (r : Runner) (e : Expectation) : List Problem :=
  differing e.lifecycle r.player.lifecycle .lifecycle ++
  (match e.event with
    | some expected => if r.lastEvent = some expected then [] else [.event r.lastEvent expected]
    | none => []) ++
  differing e.loading r.player.loading .loading ++
  differing e.position r.player.position .position ++
  differing e.plays r.player.plays .plays ++
  differing e.clock r.clock .clock
where
  differing {α : Type} [DecidableEq α] (expected : Option α) (got : α)
      (problem : α → α → Problem) : List Problem :=
    match expected with
    | some expected => if got = expected then [] else [problem got expected]
    | none => []

/-- Apply the step at place `index`: the runner afterwards, and either the new entries or the
expectation that did not hold. -/
def apply (r : Runner) (index : Nat) (s : Step) :
    Except Fault (Runner × Except Unmet (List Entry)) :=
  match s with
  | .command c =>
    let (player, effect) := r.player.perform c
    let r := { r with player }
    .ok (r, .ok [r.entry index s.label (.command effect)])
  | .advance budget times =>
    (advanceTimes index s.label budget times r []).map fun (r, entries) => (r, .ok entries)
  | .run chunk budget =>
    (runChunks index s.label chunk budget patience r []).map fun (r, entries) => (r, .ok entries)
  | .expect e =>
    match r.problems e with
    | [] => .ok (r, .ok [r.entry index s.label .checked])
    | problems => .ok (r, .error { step := index, problems })

/-- Apply steps numbered from `index` until an expectation fails. -/
def applyAll (r : Runner) (index : Nat) :
    List Step → Except Fault (Runner × Except Unmet (List Entry))
  | [] => .ok (r, .ok [])
  | s :: rest =>
    match r.apply index s with
    | .error fault => .error fault
    | .ok (r, .error unmet) => .ok (r, .error unmet)
    | .ok (r, .ok entries) =>
      match r.applyAll (index + 1) rest with
      | .error fault => .error fault
      | .ok (r, .error unmet) => .ok (r, .error unmet)
      | .ok (r, .ok more) => .ok (r, .ok (entries ++ more))

end Runner

end Playhead

import Playhead.Text
import Playhead.Scenario.Runner

/-!
# Transcripts

The entries that a whole scenario leaves, and the line in which each is written: the clock right
aligned in eight columns, the step left aligned in three and the label in sixteen, then what the
action came to, the play head and the lifecycle. Longer values push the columns to the right.
-/

namespace Playhead

namespace Outcome

def text : Outcome → String
  | command true => "ok"
  | command false => "no effect"
  | advance report => s!"{report.event.label} +{report.elapsed}"
  | checked => "passed"

/-- The event that an advance reported. -/
def event? : Outcome → Option Event
  | advance report => some report.event
  | _ => none

end Outcome

namespace Entry

/-- The line of an entry. -/
def line (e : Entry) : String :=
  "[" ++ alignRight 8 (toString e.clock) ++ "ms] #" ++ alignLeft 3 (toString e.step) ++ " " ++
    alignLeft 16 e.label ++ " " ++ e.outcome.text ++ " pos=" ++ toString e.position ++
    " state=" ++ e.lifecycle.label

end Entry

/-- What replaying a scenario left behind. -/
structure Transcript where
  entries : List Entry
  deriving DecidableEq, Repr

namespace Transcript

/-- What the advances reported, in order. -/
def events (t : Transcript) : List Event := t.entries.filterMap (·.outcome.event?)

/-- The clock after the last entry. -/
def clock (t : Transcript) : Nat := (t.entries.getLast?.map Entry.clock).getD 0

def lines (t : Transcript) : List String := t.entries.map Entry.line

end Transcript

/-- Why a scenario has no transcript. -/
inductive RunError where
  | flawed (flaw : Flaw)
  | unmet (unmet : Unmet)
  deriving DecidableEq, Repr

namespace Scenario

/-- Replay every step against a fresh player. -/
def replay (s : Scenario) : Except Fault (Except RunError Transcript) :=
  match Runner.ofScenario s with
  | .error flaw => .ok (.error (.flawed flaw))
  | .ok r =>
    match r.applyAll 0 s.steps with
    | .error fault => .error fault
    | .ok (_, .error unmet) => .ok (.error (.unmet unmet))
    | .ok (_, .ok entries) => .ok (.ok ⟨entries⟩)

end Scenario

end Playhead

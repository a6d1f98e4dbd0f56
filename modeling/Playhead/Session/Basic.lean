import Playhead.Word
import Playhead.Scenario.Transcript
import Playhead.Settings.Basic

/-!
# Interactive sessions

A session holds a scenario and a runner for it. Whatever happens in a session becomes a step that
is applied to the runner, so that a session and a replay take the same way to the player. Steps
are numbered from the last reset on. The newest entries are kept in a log of limited length, from
which routine reports are left out unless the settings ask for them.
-/

namespace Playhead

/-- A one-line message about what happened last. -/
inductive Notice where
  | unmet (unmet : Unmet)
  | flawed (flaw : Flaw)
  | scriptFinished (steps : Nat)
  deriving DecidableEq, Repr

namespace Notice

def text : Notice → String
  | unmet u => u.message
  | flawed flaw => "invalid scenario: " ++ flaw.message
  | scriptFinished steps => s!"script finished ({steps} steps)"

end Notice

structure Session where
  scenario : Scenario
  /-- Where the scenario was loaded from. -/
  path : Option String := none
  runner : Runner
  /-- Whether ticks let time pass. -/
  clockRunning : Bool := false
  /-- Recent entries, oldest first. -/
  log : List Entry := []
  /-- The most entries that the log keeps. -/
  capacity : Nat
  /-- Whether routine reports are logged. -/
  logsRoutine : Bool
  /-- Steps applied since the last reset. -/
  applied : Nat := 0
  notice : Option Notice := none
  deriving DecidableEq, Repr

namespace Entry

/-- An advance that reported nothing new. -/
def isRoutine (e : Entry) : Bool :=
  match e.outcome with
  | .advance report => report.event.isRoutine
  | _ => false

end Entry

namespace Outcome

/-- Whether something happened: only a command can be without effect. -/
def isEffective : Outcome → Bool
  | command effect => effect
  | _ => true

end Outcome

namespace Session

/-- A session for a scenario. -/
def new (scenario : Scenario) (ui : UiSettings) : Except Flaw Session := do
  let runner ← Runner.ofScenario scenario
  return { scenario, runner, capacity := max ui.eventLogLen 1, logsRoutine := ui.logTimeUpdates }

/-- Add an entry to the log, dropping the oldest one of a full log. -/
def record (s : Session) (e : Entry) : Session :=
  if e.isRoutine && !s.logsRoutine then s
  else { s with log := (if s.log.length = s.capacity then s.log.tail else s.log) ++ [e] }

/-- Apply one step, and tell whether it had an effect. -/
def apply (s : Session) (step : Step) : Except Fault (Session × Bool) :=
  match s.runner.apply s.applied step with
  | .error fault => .error fault
  | .ok (runner, .error unmet) =>
    .ok ({ s with runner, applied := s.applied + 1, notice := some (.unmet unmet) }, false)
  | .ok (runner, .ok entries) =>
    .ok (entries.foldl record { s with runner, applied := s.applied + 1 },
      entries.any (·.outcome.isEffective))

/-- Pause while playing, else play. -/
def togglePlay (s : Session) : Except Fault (Session × Bool) :=
  s.apply (.command (if s.runner.player.isPlaying then .pause else .play))

/-- The offset that lies `delta` from the play head. -/
def offsetBy (s : Session) (delta : Int) : Int :=
  clampSigned
    (clampSigned (s.runner.player.position - s.runner.player.params.start.val : Nat) + delta)

/-- Move the play head by `delta`. -/
def seekBy (s : Session) (delta : Int) : Except Fault (Session × Bool) :=
  s.apply (.command (.seek (s.offsetBy delta)))

/-- Advance once, whether the clock runs or not. -/
def step (s : Session) (budget : Nat) : Except Fault (Session × Bool) :=
  s.apply (.advance budget 1)

/-- A tick advances while the clock runs, and stops the clock of a track that has ended. -/
def tick (s : Session) (budget : Nat) : Except Fault Session :=
  if !s.clockRunning then .ok s
  else if s.runner.player.isEnded then .ok { s with clockRunning := false }
  else (s.step budget).map Prod.fst

def toggleClock (s : Session) : Session := { s with clockRunning := !s.clockRunning }

/-- Apply steps until one leaves a notice. -/
def applyAll (s : Session) : List Step → Except Fault Session
  | [] => .ok s
  | step :: rest =>
    match s.apply step with
    | .error fault => .error fault
    | .ok (s, _) => if s.notice.isSome then .ok s else s.applyAll rest

/-- Apply the steps of the scenario to the player as it is, up to the first failure. -/
def runScript (s : Session) : Except Fault Session :=
  (applyAll { s with notice := none } s.scenario.steps).map fun t =>
    if t.notice.isSome then t
    else { t with notice := some (.scriptFinished s.scenario.steps.length) }

/-- Start over with a fresh player. If the scenario has become invalid, say so and leave everything
else as it is. -/
def reset (s : Session) : Session :=
  match Runner.ofScenario s.scenario with
  | .ok runner =>
    { s with runner, log := [], applied := 0, notice := none, clockRunning := false }
  | .error flaw => { s with notice := some (.flawed flaw) }

end Session

end Playhead

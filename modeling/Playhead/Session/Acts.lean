import Playhead.Word
import Playhead.Session.Basic

/-!
# What can happen in a session

Key presses, ticks and the calls behind them, as data. A key press is one of the other acts, or a
request to quit, or nothing.
-/

namespace Playhead

/-- Keys that a session tells apart. -/
inductive KeyCode where
  | char (c : Char)
  | escape
  | left
  | right
  | other
  deriving DecidableEq, Repr

/-- A key press. -/
structure Key where
  code : KeyCode
  control : Bool := false
  deriving DecidableEq, Repr

/-- Something that happens in a session. -/
inductive Act where
  | tick (budget : Nat)
  | step (budget : Nat)
  | seekBy (delta : Int)
  | togglePlay
  | toggleClock
  | apply (step : Step)
  | runScript
  | reset
  deriving DecidableEq, Repr

/-- What a key press asks for. -/
inductive Request where
  | quit
  | act (act : Act)
  | nothing
  deriving DecidableEq, Repr

namespace Session

/-- Carry out an act, and tell whether it had an effect; acts that cannot tell say they had. -/
def perform (s : Session) : Act → Except Fault (Session × Bool)
  | .tick budget => (s.tick budget).map (·, true)
  | .step budget => s.step budget
  | .seekBy delta => s.seekBy delta
  | .togglePlay => s.togglePlay
  | .toggleClock => .ok (s.toggleClock, true)
  | .apply step => s.apply step
  | .runScript => s.runScript.map (·, true)
  | .reset => .ok (s.reset, true)

end Session

namespace Key

/-- What a key press asks for. Apart from `Ctrl+C`, keys mean the same with and without
modifiers. -/
def request (settings : Settings) (key : Key) : Request :=
  let seek : Int := min settings.controls.seekStepMs greatestSigned
  match key.code with
  | .escape => .quit
  | .left => .act (.seekBy (-seek))
  | .right => .act (.seekBy seek)
  | .other => .nothing
  | .char 'q' => .quit
  | .char ' ' | .char 'p' => .act .togglePlay
  | .char 't' => .act .toggleClock
  | .char 'n' => .act (.step settings.sim.stepMs)
  | .char 'h' => .act (.seekBy (-seek))
  | .char 'l' => .act (.seekBy seek)
  | .char 'r' => .act (.apply (.command .rewind))
  | .char 'f' => .act (.apply (.command .finish))
  | .char 'c' => if key.control then .quit else .act (.apply (.command .clearRepeat))
  | .char 'x' => .act .runScript
  | .char 'R' => .act .reset
  | .char _ => .nothing

end Key

namespace Session

/-- Handle a key press, and tell whether it asks to quit. -/
def press (s : Session) (settings : Settings) (key : Key) : Except Fault (Session × Bool) :=
  match key.request settings with
  | .quit => .ok (s, true)
  | .act act => (s.perform act).map fun (s, _) => (s, false)
  | .nothing => .ok (s, false)

end Session

end Playhead

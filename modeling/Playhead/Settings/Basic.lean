/-!
# Settings

What can be configured, the defaults, and the checks that configured values pass before they are
used. Where settings come from is the subject of `Playhead.Settings.Loading`.
-/

namespace Playhead

/-- Parts of the time text of the status panel. -/
inductive TimeField where
  /-- The play head. -/
  | position
  /-- Start and end of the window. -/
  | window
  /-- Time to the end of the current pass. -/
  | remaining
  /-- Time spent in total. -/
  | clock
  deriving DecidableEq, Repr

/-- How logical time is fed to the player. -/
structure SimSettings where
  /-- Logical time per tick while the clock runs. -/
  tickMs : Nat := 50
  /-- Real time between ticks. -/
  pollMs : Nat := 50
  /-- Logical time of a single step. -/
  stepMs : Nat := 250
  /-- Whether the clock starts running. -/
  autostart : Bool := false
  deriving DecidableEq, Repr

/-- What the screen shows. -/
structure UiSettings where
  headerText : String := " ~ deterministic playback ~ "
  /-- Entries that the event log keeps. -/
  eventLogLen : Nat := 200
  /-- Whether routine reports are logged. -/
  logTimeUpdates : Bool := false
  timeFields : List TimeField := [.position, .window, .clock]
  timeSeparator : String := " / "
  deriving DecidableEq, Repr

structure ControlSettings where
  /-- How far the seek keys move the play head. -/
  seekStepMs : Nat := 1000
  deriving DecidableEq, Repr

structure SoakSettings where
  /-- Seed of a soak for which none is given. -/
  seed : Nat := 0
  /-- Operations of a soak for which no number is given. -/
  operations : Nat := 10000
  deriving DecidableEq, Repr

structure Settings where
  sim : SimSettings := {}
  ui : UiSettings := {}
  controls : ControlSettings := {}
  soak : SoakSettings := {}
  deriving DecidableEq, Repr

namespace Settings

/-- The first setting that must not be zero and is, by its name. -/
def firstZero? (s : Settings) : Option String :=
  [("sim.tick_ms", s.sim.tickMs), ("sim.poll_ms", s.sim.pollMs), ("sim.step_ms", s.sim.stepMs),
    ("ui.event_log_len", s.ui.eventLogLen)].findSome? fun (name, n) =>
      if n = 0 then some name else none

/-- Accept settings, or say what is wrong with them. -/
def validate (s : Settings) : Except String Unit :=
  match s.firstZero? with
  | some name => .error (name ++ " must be >= 1")
  | none => .ok ()

end Settings

end Playhead

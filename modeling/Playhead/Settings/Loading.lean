import Playhead.Settings.Basic
import Playhead.Settings.Library

/-!
# Where settings come from

Each setting comes from an environment variable `PLAYSIM__SECTION__FIELD`, else from the
configuration file, else it has its default. The file is the one that `PLAYSIM_CONFIG_PATH` names,
or `playsim/config.toml` below the user's configuration directory; it need not exist. If anything
given cannot be used, or is zero where it must not be, the defaults are used throughout.
-/

namespace Playhead

/-- What the surroundings of the program hold: environment variables, and files by their path. -/
structure Surroundings where
  environment : List (String × String)
  file? : String → Option String

/-- Why settings cannot be loaded. -/
inductive LoadError where
  /-- The configuration file cannot be used. -/
  | fileSyntax
  /-- A value does not fit its setting. -/
  | unusable
  deriving DecidableEq, Repr

namespace TimeField

/-- Names of the parts of the time text. -/
def ofName? : String → Option TimeField
  | "position" | "pos" => some .position
  | "window" | "range" => some .window
  | "remaining" => some .remaining
  | "clock" | "elapsed" => some .clock
  | _ => none

/-- The name under which a part is reported. -/
def name : TimeField → String
  | position => "position"
  | window => "window"
  | remaining => "remaining"
  | clock => "clock"

end TimeField

namespace Surroundings

/-- The value of an environment variable. -/
def value? (w : Surroundings) (name : String) : Option String :=
  (w.environment.find? (·.1 == name)).map Prod.snd

/-- A path below a directory. -/
def joinPath (directory path : String) : String :=
  if directory.isEmpty || directory.endsWith "/" then directory ++ path
  else directory ++ "/" ++ path

/-- Where the configuration file is. -/
def configPath? (w : Surroundings) : Option String :=
  match w.value? "PLAYSIM_CONFIG_PATH" with
  | some path => some path
  | none =>
    match w.value? "XDG_CONFIG_HOME" with
    | some directory => some (joinPath directory "playsim/config.toml")
    | none => (w.value? "HOME").map fun home => joinPath home ".config/playsim/config.toml"

/-! ## Merging the sources -/

variable (library : Library) (w : Surroundings)

/-- What the configuration file comes to. -/
def base? : Option library.Value :=
  match w.configPath? with
  | some path => library.file? w.file? path
  | none => some library.empty

/-- All that is configured: the file, and the environment over it. -/
def configured : Except LoadError library.Value :=
  match w.base? library with
  | some base => .ok (library.assignAll base (library.ofEnvironment w.environment))
  | none => .error .fileSyntax

end Surroundings

/-! ## Settings from configured values -/

namespace Settings

variable (library : Library)

/-- The fields of a section that may be absent. -/
def section? : Option library.Value → Option (String → Nat → Option library.Value)
  | some v => library.fields? v
  | none => some fun _ _ => none

/-- A setting that is configured and can be converted, or its default if it is not configured. -/
def pick? {α β : Type} (default : β) (read : α → Option β) (given : Option α) : Option β :=
  match given with
  | some v => read v
  | none => some default

/-- A list of parts of the time text. -/
def timeFields? (v : library.Value) : Option (List TimeField) := do
  (← library.items? v).mapM fun item => (library.name? item).bind TimeField.ofName?

/-- The settings that configured values give, if all of them can be used. -/
def ofValue? (configured : library.Value) : Option Settings := do
  let basis : Settings := {}
  let sim ← section? library (library.entry? configured "sim")
  let tickMs ← pick? basis.sim.tickMs library.word? (sim "tick_ms" 0)
  let pollMs ← pick? basis.sim.pollMs library.word? (sim "poll_ms" 1)
  let stepMs ← pick? basis.sim.stepMs library.word? (sim "step_ms" 2)
  let autostart ← pick? basis.sim.autostart library.bool? (sim "autostart" 3)
  let ui ← section? library (library.entry? configured "ui")
  let headerText ← pick? basis.ui.headerText library.text? (ui "header_text" 0)
  let eventLogLen ← pick? basis.ui.eventLogLen library.word? (ui "event_log_len" 1)
  let logTimeUpdates ← pick? basis.ui.logTimeUpdates library.bool? (ui "log_time_updates" 2)
  let timeFields ← pick? basis.ui.timeFields (timeFields? library) (ui "time_fields" 3)
  let timeSeparator ← pick? basis.ui.timeSeparator library.text? (ui "time_separator" 4)
  let controls ← section? library (library.entry? configured "controls")
  let seekStepMs ← pick? basis.controls.seekStepMs library.word? (controls "seek_step_ms" 0)
  let soak ← section? library (library.entry? configured "soak")
  let seed ← pick? basis.soak.seed library.word? (soak "seed" 0)
  let operations ← pick? basis.soak.operations library.word? (soak "operations" 1)
  return {
    sim := { tickMs, pollMs, stepMs, autostart }
    ui := { headerText, eventLogLen, logTimeUpdates, timeFields, timeSeparator }
    controls := { seekStepMs }
    soak := { seed, operations } }

/-- The settings that the surroundings give. -/
def load (w : Surroundings) : Except LoadError Settings := do
  match ofValue? library (← w.configured library) with
  | some s => .ok s
  | none => .error .unusable

/-- The settings to work with: those that were loaded if they are valid, else the defaults. -/
def effective (w : Surroundings) : Settings :=
  match load library w with
  | .ok s =>
    match s.validate with
    | .ok () => s
    | .error _ => {}
  | .error _ => {}

end Settings

end Playhead

import Mathlib.Data.List.Nodup
import Playhead.Settings.Loading
import Playhead.Settings.Standard

/-!
# Settings and their sources

Each setting has a section and a key in it, which name its variable and its place in a file. Of a
library for configuration it is only relied on that it puts the variables of settings over a file,
each at the path of its setting, and that it leaves everything else there (`Library.Documented`).
-/

namespace Playhead

/-- The settings, one by one. -/
inductive Setting where
  | tickMs
  | pollMs
  | stepMs
  | autostart
  | headerText
  | eventLogLen
  | logTimeUpdates
  | timeFields
  | timeSeparator
  | seekStepMs
  | seed
  | operations
  deriving DecidableEq, Repr

namespace Setting

def type : Setting → Type
  | tickMs | pollMs | stepMs | eventLogLen | seekStepMs | seed | operations => Nat
  | autostart | logTimeUpdates => Bool
  | headerText | timeSeparator => String
  | timeFields => List TimeField

/-- The section of a setting. -/
def sectionName : Setting → String
  | tickMs | pollMs | stepMs | autostart => "sim"
  | headerText | eventLogLen | logTimeUpdates | timeFields | timeSeparator => "ui"
  | seekStepMs => "controls"
  | seed | operations => "soak"

/-- The key of a setting in its section. -/
def key : Setting → String
  | tickMs => "tick_ms"
  | pollMs => "poll_ms"
  | stepMs => "step_ms"
  | autostart => "autostart"
  | headerText => "header_text"
  | eventLogLen => "event_log_len"
  | logTimeUpdates => "log_time_updates"
  | timeFields => "time_fields"
  | timeSeparator => "time_separator"
  | seekStepMs => "seek_step_ms"
  | seed => "seed"
  | operations => "operations"

/-- The place of a setting in its section, where this is a list. -/
def place : Setting → Nat
  | tickMs | headerText | seekStepMs | seed => 0
  | pollMs | eventLogLen | operations => 1
  | stepMs | logTimeUpdates => 2
  | autostart | timeFields => 3
  | timeSeparator => 4

/-- What a setting is in settings. -/
def get (s : Settings) : (x : Setting) → x.type
  | tickMs => s.sim.tickMs
  | pollMs => s.sim.pollMs
  | stepMs => s.sim.stepMs
  | autostart => s.sim.autostart
  | headerText => s.ui.headerText
  | eventLogLen => s.ui.eventLogLen
  | logTimeUpdates => s.ui.logTimeUpdates
  | timeFields => s.ui.timeFields
  | timeSeparator => s.ui.timeSeparator
  | seekStepMs => s.controls.seekStepMs
  | seed => s.soak.seed
  | operations => s.soak.operations

/-- The conversion of a configured value to what a setting is. -/
def read (library : Library) : (x : Setting) → library.Value → Option x.type
  | tickMs | pollMs | stepMs | eventLogLen | seekStepMs | seed | operations => library.word?
  | autostart | logTimeUpdates => library.bool?
  | headerText | timeSeparator => library.text?
  | timeFields => Settings.timeFields? library

/-- The name of the variable for a setting, in small letters. -/
def variableName (x : Setting) : List Char :=
  "playsim__".toList ++ (x.sectionName.toList ++ '_' :: '_' :: x.key.toList)

/-- Where a setting is in all that is configured. -/
def path (x : Setting) : String :=
  String.ofList (x.sectionName.toList ++ '.' :: x.key.toList)

def all : List Setting :=
  [tickMs, pollMs, stepMs, autostart, headerText, eventLogLen, logTimeUpdates, timeFields,
    timeSeparator, seekStepMs, seed, operations]

theorem mem_all (x : Setting) : x ∈ all := by
  cases x <;> decide

theorem path_injective {x y : Setting} (h : x.path = y.path) : x = y := by
  have hdistinct : (all.map path).Nodup := by decide
  exact List.inj_on_of_nodup_map hdistinct (mem_all x) (mem_all y) h

theorem key_injective {x y : Setting} (h : x.key = y.key) : x = y := by
  have hdistinct : (all.map key).Nodup := by decide
  exact List.inj_on_of_nodup_map hdistinct (mem_all x) (mem_all y) h

instance : (x : Setting) → DecidableEq x.type
  | tickMs | pollMs | stepMs | eventLogLen | seekStepMs | seed | operations =>
    inferInstanceAs (DecidableEq Nat)
  | autostart | logTimeUpdates => inferInstanceAs (DecidableEq Bool)
  | headerText | timeSeparator => inferInstanceAs (DecidableEq String)
  | timeFields => inferInstanceAs (DecidableEq (List TimeField))

/-! ### What sections and keys are written with -/

theorem sectionName_ne (x : Setting) : x.sectionName.toList ≠ [] := by
  cases x <;> decide

theorem key_ne (x : Setting) : x.key.toList ≠ [] := by
  cases x <;> decide

theorem sectionName_words (x : Setting) : '_' ∉ x.sectionName.toList := by
  cases x <;> decide

theorem sectionName_bare (x : Setting) : x.sectionName.toList.all Toml.isBareKey = true := by
  cases x <;> rfl

theorem key_bare (x : Setting) : x.key.toList.all Toml.isBareKey = true := by
  cases x <;> rfl

/-- No key has a double underscore. -/
theorem dotted_key (x : Setting) : Raw.dotted x.key.toList = x.key.toList := by
  cases x <;> rfl

end Setting

/-! ## Settings in the environment -/

namespace Surroundings

/-- The name of a variable in small letters. -/
def lowerName (name : String) : List Char := name.toList.map Raw.lowered

/-- Whether the name of a variable makes it a setting, known or not. -/
def isSettingName (name : String) : Bool := "playsim__".toList.isPrefixOf (lowerName name)

/-- The value that an environment has for a setting. -/
def valueFor? (environment : List (String × String)) (x : Setting) : Option String :=
  (environment.find? fun v => lowerName v.1 = x.variableName).map Prod.snd

/-- Of the settings that an environment has, all are known, and no two have the same name in small
letters. -/
structure NamesSettings (environment : List (String × String)) : Prop where
  known : ∀ v ∈ environment, isSettingName v.1 = true →
    ∃ x : Setting, lowerName v.1 = x.variableName
  distinct : environment.Pairwise fun u v =>
    isSettingName u.1 = true → lowerName u.1 ≠ lowerName v.1

instance (environment : List (String × String)) : Decidable (NamesSettings environment) :=
  decidable_of_iff ((∀ v ∈ environment, isSettingName v.1 = true →
      ∃ x ∈ Setting.all, lowerName v.1 = x.variableName) ∧
      environment.Pairwise fun u v => isSettingName u.1 = true → lowerName u.1 ≠ lowerName v.1)
    ⟨fun h => ⟨fun v hv hname => (h.1 v hv hname).imp fun _ hx => hx.2, h.2⟩,
      fun h => ⟨fun v hv hname => (h.known v hv hname).imp fun x hx => ⟨x.mem_all, hx⟩,
        h.distinct⟩⟩

variable {environment : List (String × String)}

theorem isSettingName_of_lowerName {name : String} {x : Setting}
    (h : lowerName name = x.variableName) : isSettingName name = true := by
  rw [isSettingName, h, List.isPrefixOf_iff_prefix]
  exact List.prefix_append _ _

/-- A setting has the value of the one variable that is named for it. -/
theorem NamesSettings.valueFor?_eq_some_iff (h : NamesSettings environment) {x : Setting}
    {value : String} :
    valueFor? environment x = some value ↔
      ∃ name, (name, value) ∈ environment ∧ lowerName name = x.variableName := by
  obtain ⟨-, hdistinct⟩ := h
  induction environment with
  | nil => simp [valueFor?]
  | cons v rest ih =>
    obtain ⟨hhead, htail⟩ := List.pairwise_cons.mp hdistinct
    by_cases hv : lowerName v.1 = x.variableName
    · have hvalue : valueFor? (v :: rest) x = some v.2 := by
        rw [valueFor?, List.find?_cons_of_pos (by simpa using hv)]
        rfl
      rw [hvalue, Option.some_inj]
      constructor
      · rintro rfl
        exact ⟨v.1, List.mem_cons_self, hv⟩
      · -- No later variable has the name.
        rintro ⟨name, hmem, hname⟩
        rcases List.mem_cons.mp hmem with rfl | hrest
        · rfl
        · exact absurd (hv.trans hname.symm) (hhead _ hrest (isSettingName_of_lowerName hv))
    · have hvalue : valueFor? (v :: rest) x = valueFor? rest x := by
        rw [valueFor?, valueFor?, List.find?_cons_of_neg (by simpa using hv)]
      rw [hvalue, ih htail]
      refine exists_congr fun name => and_congr_left fun hname => ?_
      rw [List.mem_cons, or_iff_right]
      rintro rfl
      exact hv hname

end Surroundings

/-! ## What a library is relied on for -/

namespace Library

variable (library : Library)

/-- What is configured for a setting. -/
def given (c : library.Value) (x : Setting) : Option library.Value :=
  (library.entry? c x.sectionName).bind fun s => library.entry? s x.key

/-- A table: its fields are its entries. -/
def IsTable (v : library.Value) : Prop :=
  library.fields? v = some fun key _ => library.entry? v key

/-- Whether a section is a table or absent. -/
def TableOrAbsent (c : library.Value) (sectionName : String) : Prop :=
  ∀ s ∈ library.entry? c sectionName, library.IsTable s

/-- Variables are settings by their names, and what is merged later wins.

An environment with settings alone gives each of them once, in whatever order, at its path and with
the value as it is typed. Such a value that is merged at the path of a setting is there, the other
settings are as before, and no section becomes anything but a table. -/
structure Documented (typed : String → library.Value) : Prop where
  mem_ofEnvironment : ∀ {environment : List (String × String)},
    Surroundings.NamesSettings environment → ∀ {key : String} {v : library.Value},
      (key, v) ∈ library.ofEnvironment environment ↔
        ∃ (x : Setting) (value : String),
          Surroundings.valueFor? environment x = some value ∧ key = x.path ∧ v = typed value
  nodup_ofEnvironment : ∀ {environment : List (String × String)},
    Surroundings.NamesSettings environment →
      ((library.ofEnvironment environment).map Prod.fst).Nodup
  given_assign : ∀ (c : library.Value) (x : Setting) (value : String) (y : Setting),
    library.given (library.assign c x.path (typed value)) y =
      if y = x then some (typed value) else library.given c y
  tableOrAbsent_assign : ∀ (c : library.Value) (x : Setting) (value sectionName : String),
    library.TableOrAbsent c sectionName →
      library.TableOrAbsent (library.assign c x.path (typed value)) sectionName

end Library

end Playhead

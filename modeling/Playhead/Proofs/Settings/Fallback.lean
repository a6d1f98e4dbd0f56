import Playhead.Proofs.Session.EventLog
import Playhead.Proofs.Settings.Precedence

/-!
# Settings that cannot be used

What is configured is used as a whole or not at all. A file that cannot be used spoils it, and so
does one value that cannot be converted, or one zero where there must be none
(`Surroundings.Spoilt`). Then every setting has its default, however well it is configured
(`Settings.effective_all_or_nothing`). All of this is so with every library.
-/

namespace Playhead

/-- The values that a setting must not have. -/
def Setting.Excludes : (x : Setting) → x.type → Prop
  | tickMs | pollMs | stepMs | eventLogLen => fun n : Nat => n = 0
  | autostart | headerText | logTimeUpdates | timeFields | timeSeparator | seekStepMs | seed
  | operations => fun _ => False

namespace Surroundings

/-- What makes all that is configured useless. -/
inductive Spoilt (library : Library) (w : Surroundings) : Prop where
  /-- There is a configuration file, and it cannot be used. -/
  | file {path : String} (hpath : w.configPath? = some path)
      (hbad : library.file? w.file? path = none)
  /-- A setting is configured with what cannot be converted. -/
  | value {c : library.Value} {x : Setting} (hc : w.configured library = .ok c)
      (hx : x.taken library c = none)
  /-- A setting is configured with what it must not be. -/
  | zero {c : library.Value} {x : Setting} {value : x.type} (hc : w.configured library = .ok c)
      (hx : x.taken library c = some value) (hbad : x.Excludes value)

theorem configured_eq_error_iff {library : Library} {w : Surroundings} {e : LoadError} :
    w.configured library = .error e ↔
      e = .fileSyntax ∧ ∃ path, w.configPath? = some path ∧ library.file? w.file? path = none := by
  rw [configured, base?]
  cases w.configPath? with
  | none => simp
  | some path =>
    dsimp only
    cases hfile : library.file? w.file? path <;> simp [hfile, eq_comm]

end Surroundings

namespace Settings

variable {library : Library} {w : Surroundings} {s : Settings}

theorem firstZero?_eq_none_iff : s.firstZero? = none ↔ ∀ x : Setting, ¬x.Excludes (x.get s) := by
  simp only [firstZero?, List.findSome?_eq_none_iff, List.forall_mem_cons, ite_eq_right_iff,
    Option.some_ne_none, imp_false]
  constructor
  · rintro ⟨htick, hpoll, hstep, hlog, -⟩ x
    cases x with
    | tickMs => exact htick
    | pollMs => exact hpoll
    | stepMs => exact hstep
    | eventLogLen => exact hlog
    | _ => exact not_false
  · intro h
    exact ⟨h .tickMs, h .pollMs, h .stepMs, h .eventLogLen, nofun⟩

/-- Settings are valid if none of them has a value that it must not have. -/
theorem validate_eq_ok_iff : s.validate = .ok () ↔ ∀ x : Setting, ¬x.Excludes (x.get s) := by
  rw [← firstZero?_eq_none_iff, validate]
  cases s.firstZero? with
  | none => exact iff_of_true rfl rfl
  | some name => exact iff_of_false nofun nofun

theorem load_eq_ok_iff :
    load library w = .ok s ↔
      ∃ c, w.configured library = .ok c ∧ ∀ x : Setting, x.taken library c = some (x.get s) := by
  simp only [← ofValue?_eq_some_iff_taken]
  cases hc : w.configured library with
  | error e =>
    have hload : load library w = .error e := by
      rw [load, hc]
      rfl
    simp [hload]
  | ok c =>
    rw [load_of_configured hc]
    cases hs : ofValue? library c <;> simp [hs]

theorem not_spoilt_of_load (hload : load library w = .ok s) (hvalid : s.validate = .ok ()) :
    ¬w.Spoilt library := by
  intro hspoilt
  obtain ⟨c, hc, htaken⟩ := load_eq_ok_iff.mp hload
  cases hspoilt with
  | file hpath hbad =>
    have hfile := Surroundings.configured_eq_error_iff.mpr ⟨rfl, _, hpath, hbad⟩
    rw [hc] at hfile
    cases hfile
  | @value c' x hc' hx =>
    rw [hc] at hc'
    cases hc'
    rw [htaken x] at hx
    cases hx
  | @zero c' x value hc' hx hbad =>
    rw [hc] at hc'
    cases hc'
    rw [htaken x] at hx
    cases hx
    exact validate_eq_ok_iff.mp hvalid x hbad

/-- If nothing is spoilt, every stage of the loading goes through. -/
theorem exists_load (hsound : ¬w.Spoilt library) :
    ∃ s, load library w = .ok s ∧ s.validate = .ok () := by
  cases hc : w.configured library with
  | error e =>
    obtain ⟨-, path, hpath, hbad⟩ := Surroundings.configured_eq_error_iff.mp hc
    exact absurd (.file hpath hbad) hsound
  | ok c =>
    cases hs : ofValue? library c with
    | none =>
      obtain ⟨x, hx⟩ := ofValue?_eq_none_iff_taken.mp hs
      exact absurd (.value hc hx) hsound
    | some s =>
      have htaken := ofValue?_eq_some_iff_taken.mp hs
      refine ⟨s, load_eq_ok_iff.mpr ⟨c, hc, htaken⟩, validate_eq_ok_iff.mpr fun x hbad => ?_⟩
      exact hsound (.zero hc (htaken x) hbad)

/-- What is configured is spoilt if no valid settings can be loaded, and only then. -/
theorem spoilt_iff : w.Spoilt library ↔ ∀ s, load library w = .ok s → s.validate ≠ .ok () := by
  constructor
  · exact fun hspoilt s hload hvalid => not_spoilt_of_load hload hvalid hspoilt
  · intro hnone
    by_contra hsound
    obtain ⟨s, hload, hvalid⟩ := exists_load hsound
    exact hnone s hload hvalid

/-! ## The settings to work with -/

theorem effective_of_load (hload : load library w = .ok s) (hvalid : s.validate = .ok ()) :
    effective library w = s := by
  rw [effective, hload]
  dsimp only
  rw [hvalid]

theorem effective_of_spoilt (hspoilt : w.Spoilt library) : effective library w = {} := by
  rw [effective]
  cases hload : load library w with
  | error e => rfl
  | ok s =>
    dsimp only
    cases hvalid : s.validate with
    | error message => rfl
    | ok u => exact absurd hvalid (spoilt_iff.mp hspoilt s hload)

theorem validate_effective (library : Library) (w : Surroundings) :
    (effective library w).validate = .ok () := by
  by_cases hspoilt : w.Spoilt library
  · rw [effective_of_spoilt hspoilt]
    rfl
  · obtain ⟨s, hload, hvalid⟩ := exists_load hspoilt
    rw [effective_of_load hload hvalid]
    exact hvalid

end Settings

namespace Session

/-- With settings that are valid, the log of a session has the room that they ask for. -/
theorem capacity_new {scenario : Scenario} {settings : Settings} {s : Session}
    (hvalid : settings.validate = .ok ()) (hnew : Session.new scenario settings.ui = .ok s) :
    s.capacity = settings.ui.eventLogLen := by
  have hpos : settings.ui.eventLogLen ≠ 0 := Settings.validate_eq_ok_iff.mp hvalid .eventLogLen
  obtain ⟨fresh, -, rfl⟩ := eq_of_new hnew
  exact Nat.max_eq_left (Nat.one_le_iff_ne_zero.mpr hpos)

end Session

namespace Settings

/-- The settings to work with are those that are loaded, or all defaults.

They are the defaults exactly if what is configured is spoilt: by a file that cannot be used, by any
setting that cannot be converted, or by a zero among those that must not be zero. So they are always
valid, and a session that is made with them has a log with just the room that they ask for, whatever
happens in it. -/
theorem effective_all_or_nothing (library : Library) (w : Surroundings) :
    (∀ s, load library w = .ok s → s.validate = .ok () → effective library w = s) ∧
    (w.Spoilt library → effective library w = {}) ∧
    (w.Spoilt library ↔ ∀ s, load library w = .ok s → s.validate ≠ .ok ()) ∧
    (effective library w).validate = .ok () ∧
    ∀ scenario s, Session.new scenario (effective library w).ui = .ok s →
      s.capacity = (effective library w).ui.eventLogLen ∧
      ∀ inputs t c, s.run { basis := scenario } inputs = .ok (t, c) →
        t.capacity = (effective library w).ui.eventLogLen ∧
        t.log.length ≤ (effective library w).ui.eventLogLen := by
  refine ⟨fun s => effective_of_load, effective_of_spoilt, spoilt_iff,
    validate_effective library w, ?_⟩
  intro scenario s hnew
  have hcapacity := Session.capacity_new (validate_effective library w) hnew
  refine ⟨hcapacity, ?_⟩
  intro inputs t c hrun
  have hroom : t.capacity = s.capacity := congrArg Prod.fst (Session.room_run hrun)
  have hfits := ((Session.follows_new hnew).run hrun).logFits.length_le
  rw [hroom, hcapacity] at hfits
  exact ⟨hroom.trans hcapacity, hfits⟩

/-- A file with a value that can be used and one that cannot. -/
def meagreFile (path : String) : Option String :=
  if path = "config.toml" then some "[sim]\ntick_ms = 7\n\n[ui]\nevent_log_len = 0\n" else none

/-- A zero makes what stands beside it useless as well, until a variable hides it. -/
theorem effective_all_or_nothing_around_zero :
    let library := Library.standard
    let path := ("PLAYSIM_CONFIG_PATH", "config.toml")
    let w : Surroundings := ⟨[path], meagreFile⟩
    let w' : Surroundings := ⟨[path, ("PLAYSIM__UI__EVENT_LOG_LEN", "2")], meagreFile⟩
    let s : Settings := { sim := { tickMs := 7 }, ui := { eventLogLen := 0 } }
    let s' : Settings := { sim := { tickMs := 7 }, ui := { eventLogLen := 2 } }
    load library w = .ok s ∧ w.Spoilt library ∧ effective library w = {} ∧
      load library w' = .ok s' ∧ ¬w'.Spoilt library ∧ effective library w' = s' ∧
      ∃ session t c, Session.new (Session.hasty 40) s'.ui = .ok session ∧ session.capacity = 2 ∧
        session.run { basis := Session.hasty 40 } [.act .runScript, .act .reset, .act .runScript] =
          .ok (t, c) ∧
        t.capacity = 2 ∧ t.log.length ≤ 2 := by
  intro library path w w' s s'
  have hload : load library w = .ok s := by decide +kernel
  have hload' : load library w' = .ok s' := by decide +kernel
  obtain ⟨-, hdefaults, hspoilt, -, -⟩ := effective_all_or_nothing library w
  obtain ⟨hloaded, -, hspoilt', -, hroom⟩ := effective_all_or_nothing library w'
  have hzero : w.Spoilt library := by
    rw [hspoilt]
    intro u hu
    rw [hload] at hu
    cases hu
    decide
  have hsound : ¬w'.Spoilt library := by
    rw [hspoilt']
    exact fun hnone => hnone s' hload' (by decide)
  have heffective : effective library w' = s' := hloaded s' hload' (by decide)
  rw [heffective] at hroom
  have hcontent : (Session.hasty 40).content.resolve = .ok { length := .finite 40 } := by rfl
  have hnew := Session.new_eq (Scenario.ofScenario_of_resolve hcontent) s'.ui
  obtain ⟨session, hsession⟩ : ∃ session, Session.new (Session.hasty 40) s'.ui = .ok session :=
    ⟨_, hnew⟩
  have hruns : (session.run { basis := Session.hasty 40 }
      [.act .runScript, .act .reset, .act .runScript]).isOk = true := by
    rw [hnew] at hsession
    cases hsession
    cbv
  obtain ⟨hcapacity, hkept⟩ := hroom _ session hsession
  cases hrun : session.run { basis := Session.hasty 40 }
      [.act .runScript, .act .reset, .act .runScript] with
  | error fault =>
    rw [hrun] at hruns
    cases hruns
  | ok r =>
    obtain ⟨t, c⟩ := r
    obtain ⟨hcapacity', hfits⟩ := hkept _ t c hrun
    exact ⟨hload, hzero, hdefaults hzero, hload', hsound, heffective, session, t, c, hsession,
      hcapacity, hrun, hcapacity', hfits⟩

end Settings

end Playhead

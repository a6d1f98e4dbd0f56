import Playhead.Proofs.Settings.Merging

/-!
# Where each setting comes from

Settings are loaded as a whole, but each of them has its own source: the environment if it is given
there, else the file, else it has its default. What the file has for a setting that the environment
gives is not looked at, and settings do not look at one another (`Settings.load_eq_chosen`).
-/

namespace Playhead

/-! ## The environment over a file -/

namespace Library.Documented

variable {library : Library} {typed : String → library.Value} {sectionName : String}
  {environment : List (String × String)} {overlay : List (String × library.Value)}

/-- Where a setting is not among the values of variables that are merged over what is configured, it
is as before. -/
theorem given_assignAll_of_notMem (h : library.Documented typed)
    (hoverlay : ∀ e ∈ overlay, ∃ (x : Setting) (value : String), e = (x.path, typed value))
    {x : Setting} (hx : ∀ v, (x.path, v) ∉ overlay) (c : library.Value) :
    library.given (library.assignAll c overlay) x = library.given c x := by
  induction overlay generalizing c with
  | nil => rfl
  | cons e rest ih =>
    obtain ⟨y, value, rfl⟩ := hoverlay e List.mem_cons_self
    have hne : x ≠ y := by
      rintro rfl
      exact hx _ List.mem_cons_self
    rw [assignAll_cons, ih (fun e he => hoverlay e (List.mem_cons_of_mem _ he))
      (fun v hv => hx v (List.mem_cons_of_mem _ hv)), h.given_assign, if_neg hne]

/-- Where a setting is among them, it has its value from there. -/
theorem given_assignAll_of_mem (h : library.Documented typed)
    (hoverlay : ∀ e ∈ overlay, ∃ (x : Setting) (value : String), e = (x.path, typed value))
    (hdistinct : (overlay.map Prod.fst).Nodup) {x : Setting} {v : library.Value}
    (hx : (x.path, v) ∈ overlay) (c : library.Value) :
    library.given (library.assignAll c overlay) x = some v := by
  induction overlay generalizing c with
  | nil => cases hx
  | cons e rest ih =>
    have hrest := fun e he => hoverlay e (List.mem_cons_of_mem _ he)
    obtain ⟨y, value, rfl⟩ := hoverlay e List.mem_cons_self
    rw [List.map_cons, List.nodup_cons] at hdistinct
    rw [assignAll_cons]
    rcases List.mem_cons.mp hx with heq | hmem
    · -- No later variable has the key, so the value stays.
      obtain ⟨hpath, rfl⟩ := Prod.mk.inj heq
      cases Setting.path_injective hpath
      have hlater : ∀ v, (x.path, v) ∉ rest :=
        fun v hv => hdistinct.1 (List.mem_map.mpr ⟨_, hv, rfl⟩)
      rw [h.given_assignAll_of_notMem hrest hlater, h.given_assign, if_pos rfl]
    · exact ih hrest hdistinct.2 hmem _

theorem eq_path_of_mem_ofEnvironment (h : library.Documented typed)
    (hnames : Surroundings.NamesSettings environment) :
    ∀ e ∈ library.ofEnvironment environment,
      ∃ (x : Setting) (value : String), e = (x.path, typed value) := by
  rintro ⟨key, v⟩ he
  obtain ⟨x, value, -, rfl, rfl⟩ := (h.mem_ofEnvironment hnames).mp he
  exact ⟨x, value, rfl⟩

/-- The environment over what is configured: each setting that is in the environment has its value
from there, all others are as before. -/
theorem given_assignAll (h : library.Documented typed)
    (hnames : Surroundings.NamesSettings environment) (x : Setting) (c : library.Value) :
    library.given (library.assignAll c (library.ofEnvironment environment)) x =
      match Surroundings.valueFor? environment x with
      | some value => some (typed value)
      | none => library.given c x := by
  have hoverlay := h.eq_path_of_mem_ofEnvironment hnames
  cases hvalue : Surroundings.valueFor? environment x with
  | some value =>
    have hmem := (h.mem_ofEnvironment hnames).mpr ⟨x, value, hvalue, rfl, rfl⟩
    exact h.given_assignAll_of_mem hoverlay (h.nodup_ofEnvironment hnames) hmem c
  | none =>
    refine h.given_assignAll_of_notMem hoverlay (fun v hv => ?_) c
    obtain ⟨y, value, hy, hpath, -⟩ := (h.mem_ofEnvironment hnames).mp hv
    cases Setting.path_injective hpath
    rw [hvalue] at hy
    cases hy

theorem tableOrAbsent_assignAll (h : library.Documented typed)
    (hnames : Surroundings.NamesSettings environment) {c : library.Value}
    (hc : library.TableOrAbsent c sectionName) :
    library.TableOrAbsent (library.assignAll c (library.ofEnvironment environment))
      sectionName := by
  refine List.foldlRecOn (motive := fun c => library.TableOrAbsent c sectionName) _ _ hc
    fun c hc e he => ?_
  obtain ⟨x, value, rfl⟩ := h.eq_path_of_mem_ofEnvironment hnames e he
  exact h.tableOrAbsent_assign c x value sectionName hc

end Library.Documented

/-! ## Settings from configured values -/

namespace Setting

/-- A setting that is configured and can be converted, or its default. Nothing comes of a section
that is neither a table nor a list. -/
def taken (x : Setting) (library : Library) (c : library.Value) : Option x.type :=
  (Settings.section? library (library.entry? c x.sectionName)).bind fun field =>
    Settings.pick? (x.get {}) (x.read library) (field x.key x.place)

/-- A setting as it is taken where its section is a table or absent. -/
def converted (x : Setting) (library : Library) (c : library.Value) : Option x.type :=
  Settings.pick? (x.get {}) (x.read library) (library.given c x)

end Setting

namespace Settings

/-- The settings with a value for each. -/
def ofValues (value : (x : Setting) → x.type) : Settings where
  sim :=
    { tickMs := value .tickMs
      pollMs := value .pollMs
      stepMs := value .stepMs
      autostart := value .autostart }
  ui :=
    { headerText := value .headerText
      eventLogLen := value .eventLogLen
      logTimeUpdates := value .logTimeUpdates
      timeFields := value .timeFields
      timeSeparator := value .timeSeparator }
  controls := { seekStepMs := value .seekStepMs }
  soak := { seed := value .seed, operations := value .operations }

theorem get_ofValues (value : (x : Setting) → x.type) (x : Setting) :
    x.get (ofValues value) = value x := by
  cases x <;> rfl

variable {library : Library} {w : Surroundings} {c : library.Value} {s : Settings}

theorem section?_of_tableOrAbsent {name : String} (h : library.TableOrAbsent c name) :
    Settings.section? library (library.entry? c name) =
      some fun key _ => (library.entry? c name).bind fun s => library.entry? s key := by
  cases hs : library.entry? c name with
  | none => rfl
  | some s => exact h s hs

theorem taken_eq_some_iff {x : Setting} {value : x.type} :
    x.taken library c = some value ↔
      ∃ field, section? library (library.entry? c x.sectionName) = some field ∧
        pick? (x.get {}) (x.read library) (field x.key x.place) = some value :=
  Option.bind_eq_some_iff

theorem taken_eq {x : Setting} {field : String → Nat → Option library.Value}
    (hsection : section? library (library.entry? c x.sectionName) = some field) :
    x.taken library c = pick? (x.get {}) (x.read library) (field x.key x.place) := by
  rw [Setting.taken, hsection, Option.bind_some]

theorem taken_eq_converted {x : Setting} (h : library.TableOrAbsent c x.sectionName) :
    x.taken library c = x.converted library c :=
  taken_eq (section?_of_tableOrAbsent h)

/-- Where one setting after the other is taken, all of them are. -/
theorem taken_of_ofValue? (hs : ofValue? library c = some s) (x : Setting) :
    x.taken library c = some (x.get s) := by
  obtain ⟨sim, hsim, hs⟩ := Option.bind_eq_some_iff.mp hs
  obtain ⟨_, htickMs, hs⟩ := Option.bind_eq_some_iff.mp hs
  obtain ⟨_, hpollMs, hs⟩ := Option.bind_eq_some_iff.mp hs
  obtain ⟨_, hstepMs, hs⟩ := Option.bind_eq_some_iff.mp hs
  obtain ⟨_, hautostart, hs⟩ := Option.bind_eq_some_iff.mp hs
  obtain ⟨ui, hui, hs⟩ := Option.bind_eq_some_iff.mp hs
  obtain ⟨_, hheaderText, hs⟩ := Option.bind_eq_some_iff.mp hs
  obtain ⟨_, heventLogLen, hs⟩ := Option.bind_eq_some_iff.mp hs
  obtain ⟨_, hlogTimeUpdates, hs⟩ := Option.bind_eq_some_iff.mp hs
  obtain ⟨_, htimeFields, hs⟩ := Option.bind_eq_some_iff.mp hs
  obtain ⟨_, htimeSeparator, hs⟩ := Option.bind_eq_some_iff.mp hs
  obtain ⟨controls, hcontrols, hs⟩ := Option.bind_eq_some_iff.mp hs
  obtain ⟨_, hseekStepMs, hs⟩ := Option.bind_eq_some_iff.mp hs
  obtain ⟨soak, hsoak, hs⟩ := Option.bind_eq_some_iff.mp hs
  obtain ⟨_, hseed, hs⟩ := Option.bind_eq_some_iff.mp hs
  obtain ⟨_, hoperations, hs⟩ := Option.bind_eq_some_iff.mp hs
  cases hs
  cases x with
  | tickMs => exact taken_eq_some_iff.mpr ⟨_, hsim, htickMs⟩
  | pollMs => exact taken_eq_some_iff.mpr ⟨_, hsim, hpollMs⟩
  | stepMs => exact taken_eq_some_iff.mpr ⟨_, hsim, hstepMs⟩
  | autostart => exact taken_eq_some_iff.mpr ⟨_, hsim, hautostart⟩
  | headerText => exact taken_eq_some_iff.mpr ⟨_, hui, hheaderText⟩
  | eventLogLen => exact taken_eq_some_iff.mpr ⟨_, hui, heventLogLen⟩
  | logTimeUpdates => exact taken_eq_some_iff.mpr ⟨_, hui, hlogTimeUpdates⟩
  | timeFields => exact taken_eq_some_iff.mpr ⟨_, hui, htimeFields⟩
  | timeSeparator => exact taken_eq_some_iff.mpr ⟨_, hui, htimeSeparator⟩
  | seekStepMs => exact taken_eq_some_iff.mpr ⟨_, hcontrols, hseekStepMs⟩
  | seed => exact taken_eq_some_iff.mpr ⟨_, hsoak, hseed⟩
  | operations => exact taken_eq_some_iff.mpr ⟨_, hsoak, hoperations⟩

theorem pick?_of_taken {x : Setting} {value : x.type} {field : String → Nat → Option library.Value}
    (h : x.taken library c = some value)
    (hsection : section? library (library.entry? c x.sectionName) = some field) :
    pick? (x.get {}) (x.read library) (field x.key x.place) = some value :=
  (taken_eq hsection).symm.trans h

/-- Where all settings can be taken, they are taken one after the other. -/
theorem ofValue?_of_taken (hall : ∀ x : Setting, x.taken library c = some (x.get s)) :
    ofValue? library c = some s := by
  obtain ⟨sim, hsim, -⟩ := taken_eq_some_iff.mp (hall .tickMs)
  obtain ⟨ui, hui, -⟩ := taken_eq_some_iff.mp (hall .headerText)
  obtain ⟨controls, hcontrols, -⟩ := taken_eq_some_iff.mp (hall .seekStepMs)
  obtain ⟨soak, hsoak, -⟩ := taken_eq_some_iff.mp (hall .seed)
  refine Option.bind_eq_some_iff.mpr ⟨_, hsim, ?_⟩
  refine Option.bind_eq_some_iff.mpr ⟨_, pick?_of_taken (hall .tickMs) hsim, ?_⟩
  refine Option.bind_eq_some_iff.mpr ⟨_, pick?_of_taken (hall .pollMs) hsim, ?_⟩
  refine Option.bind_eq_some_iff.mpr ⟨_, pick?_of_taken (hall .stepMs) hsim, ?_⟩
  refine Option.bind_eq_some_iff.mpr ⟨_, pick?_of_taken (hall .autostart) hsim, ?_⟩
  refine Option.bind_eq_some_iff.mpr ⟨_, hui, ?_⟩
  refine Option.bind_eq_some_iff.mpr ⟨_, pick?_of_taken (hall .headerText) hui, ?_⟩
  refine Option.bind_eq_some_iff.mpr ⟨_, pick?_of_taken (hall .eventLogLen) hui, ?_⟩
  refine Option.bind_eq_some_iff.mpr ⟨_, pick?_of_taken (hall .logTimeUpdates) hui, ?_⟩
  refine Option.bind_eq_some_iff.mpr ⟨_, pick?_of_taken (hall .timeFields) hui, ?_⟩
  refine Option.bind_eq_some_iff.mpr ⟨_, pick?_of_taken (hall .timeSeparator) hui, ?_⟩
  refine Option.bind_eq_some_iff.mpr ⟨_, hcontrols, ?_⟩
  refine Option.bind_eq_some_iff.mpr ⟨_, pick?_of_taken (hall .seekStepMs) hcontrols, ?_⟩
  refine Option.bind_eq_some_iff.mpr ⟨_, hsoak, ?_⟩
  refine Option.bind_eq_some_iff.mpr ⟨_, pick?_of_taken (hall .seed) hsoak, ?_⟩
  exact Option.bind_eq_some_iff.mpr ⟨_, pick?_of_taken (hall .operations) hsoak, rfl⟩

/-- Configured values give the settings that have the value of each setting. -/
theorem ofValue?_eq_some_iff_taken :
    ofValue? library c = some s ↔ ∀ x : Setting, x.taken library c = some (x.get s) :=
  ⟨fun hs => taken_of_ofValue? hs, fun hall => ofValue?_of_taken hall⟩

theorem ofValue?_eq_none_iff_taken :
    ofValue? library c = none ↔ ∃ x : Setting, x.taken library c = none := by
  constructor
  · -- If each of them could be taken, there would be settings with these values.
    intro hnone
    by_contra hall
    simp only [not_exists, ← ne_eq, Option.ne_none_iff_exists'] at hall
    choose value hvalue using hall
    have hsome : ofValue? library c = some (ofValues value) := by
      rw [ofValue?_eq_some_iff_taken]
      intro x
      rw [get_ofValues, hvalue]
    rw [hnone] at hsome
    cases hsome
  · rintro ⟨x, hx⟩
    rw [Option.eq_none_iff_forall_ne_some]
    intro s hs
    rw [taken_of_ofValue? hs x] at hx
    cases hx

theorem ofValue?_eq_some_iff (h : ∀ x : Setting, library.TableOrAbsent c x.sectionName) :
    ofValue? library c = some s ↔ ∀ x : Setting, x.converted library c = some (x.get s) := by
  rw [ofValue?_eq_some_iff_taken]
  exact forall_congr' fun x => by rw [taken_eq_converted (h x)]

theorem ofValue?_eq_none_iff (h : ∀ x : Setting, library.TableOrAbsent c x.sectionName) :
    ofValue? library c = none ↔ ∃ x : Setting, x.converted library c = none := by
  rw [ofValue?_eq_none_iff_taken]
  exact exists_congr fun x => by rw [taken_eq_converted (h x)]

theorem load_of_configured (hc : w.configured library = .ok c) :
    load library w =
      match ofValue? library c with
      | some s => .ok s
      | none => .error .unusable := by
  rw [load, hc]
  rfl

theorem configured_eq {base : library.Value} (hbase : w.base? library = some base) :
    w.configured library =
      .ok (library.assignAll base (library.ofEnvironment w.environment)) := by
  rw [Surroundings.configured, hbase]

end Settings

/-! ## Sources -/

namespace Setting

/-- What a setting is to be: the conversion of its value in the environment if it has one there,
else of its value in the file if it has one there, else its default. -/
def chosen (x : Setting) (library : Library) (typed : String → library.Value) (w : Surroundings)
    (file : library.Value) : Option x.type :=
  match Surroundings.valueFor? w.environment x with
  | some value => x.read library (typed value)
  | none =>
    match library.given file x with
    | some v => x.read library v
    | none => some (x.get {})

theorem converted_assignAll {library : Library} {typed : String → library.Value} {w : Surroundings}
    (h : library.Documented typed) (hnames : Surroundings.NamesSettings w.environment)
    (x : Setting) (file : library.Value) :
    x.converted library (library.assignAll file (library.ofEnvironment w.environment)) =
      x.chosen library typed w file := by
  rw [converted, h.given_assignAll hnames, chosen]
  cases Surroundings.valueFor? w.environment x with
  | some value => rfl
  | none => cases library.given file x <;> rfl

end Setting

namespace Settings

/-- Settings are loaded one by one, whatever library does it, as long as it can be relied on. Where
the file can be read and its sections are tables or absent, and the environment has no setting twice
and none that is unknown, the settings that are loaded are those in which each is what is chosen for
it; and nothing is loaded exactly if what is chosen for one of them cannot be converted. -/
theorem load_eq_chosen {library : Library} {typed : String → library.Value} {w : Surroundings}
    {file : library.Value} (hlibrary : library.Documented typed)
    (hfile : w.base? library = some file)
    (hsections : ∀ x : Setting, library.TableOrAbsent file x.sectionName)
    (hnames : Surroundings.NamesSettings w.environment) :
    (∀ s, load library w = .ok s ↔
      ∀ x : Setting, x.chosen library typed w file = some (x.get s)) ∧
    ∀ e, load library w = .error e ↔
      e = .unusable ∧ ∃ x : Setting, x.chosen library typed w file = none := by
  have hload := load_of_configured (configured_eq hfile)
  have hconfigured := fun x : Setting => hlibrary.tableOrAbsent_assignAll hnames (hsections x)
  have hsome := fun s => ofValue?_eq_some_iff (s := s) hconfigured
  have hnone := ofValue?_eq_none_iff hconfigured
  simp only [Setting.converted_assignAll hlibrary hnames] at hsome hnone
  rw [hload]
  constructor
  · intro s
    rw [← hsome]
    cases ofValue? library _ <;> simp
  · intro e
    rw [← hnone]
    cases ofValue? library _ <;> simp [eq_comm]

/-- A file with a value that cannot be used, with values that are converted, and with sections that
are not complete. -/
def soonFile (path : String) : Option String :=
  if path = "config.toml" then
    some ("[sim]\ntick_ms = \"soon\"\npoll_ms = 20\nautostart = \"yes\"\n\n" ++
      "[ui]\nheader_text = 7\ntime_fields = [\"clock\"]\n")
  else none

/-- What cannot be used is hidden by a variable, and what stands beside it is used; without the
variable, nothing is loaded. -/
theorem load_eq_chosen_over_unusable :
    let library := Library.standard
    let path := ("PLAYSIM_CONFIG_PATH", "config.toml")
    let w : Surroundings :=
      ⟨[path, ("Playsim__Sim__Tick_Ms", "7"), ("PLAYSIM__UI__EVENT_LOG_LEN", "16")], soonFile⟩
    let w' : Surroundings := ⟨[path], soonFile⟩
    let s : Settings :=
      { sim := { tickMs := 7, pollMs := 20, autostart := true }
        ui := { headerText := "7", eventLogLen := 16, timeFields := [.clock] } }
    library.Documented Raw.ofVariable ∧
      Surroundings.NamesSettings w.environment ∧ Surroundings.NamesSettings w'.environment ∧
      ∃ file, w.base? library = some file ∧ w'.base? library = some file ∧
        (∀ x : Setting, library.TableOrAbsent file x.sectionName) ∧
        (∀ x : Setting, x.chosen library Raw.ofVariable w file = some (x.get s)) ∧
        load library w = .ok s ∧
        Setting.tickMs.chosen library Raw.ofVariable w' file = none ∧
        load library w' = .error .unusable := by
  intro library path w w' s
  have hcheck : (w.base? library).map (fun file : Raw => decide (
      (∀ x ∈ Setting.all, ∀ t ∈ Raw.lookup x.sectionName file.entries, t.isTable = true) ∧
      (∀ x ∈ Setting.all, x.chosen library Raw.ofVariable w file = some (x.get s)) ∧
      Setting.tickMs.chosen library Raw.ofVariable w' file = none)) = some true := by
    decide +kernel
  have hnames : Surroundings.NamesSettings w.environment := by decide +kernel
  have hnames' : Surroundings.NamesSettings w'.environment := by decide +kernel
  obtain ⟨file, hfile, hfacts⟩ := Option.map_eq_some_iff.mp hcheck
  obtain ⟨htables, hchosen, hticks⟩ := of_decide_eq_true hfacts
  have hfile' : w'.base? library = some file := hfile
  have hsections : ∀ x : Setting, library.TableOrAbsent file x.sectionName :=
    fun x => Library.tableOrAbsent_standard (htables x x.mem_all)
  have hchosen : ∀ x : Setting, x.chosen library Raw.ofVariable w file = some (x.get s) :=
    fun x => hchosen x x.mem_all
  obtain ⟨hload, -⟩ := load_eq_chosen Library.standard_documented hfile hsections hnames
  obtain ⟨-, herror⟩ := load_eq_chosen Library.standard_documented hfile' hsections hnames'
  exact ⟨Library.standard_documented, hnames, hnames', file, hfile, hfile', hsections, hchosen,
    (hload s).mpr hchosen, hticks, (herror _).mpr ⟨rfl, .tickMs, hticks⟩⟩

end Settings

end Playhead

import Mathlib
import Playhead.Proofs.Session.Refinement
import Playhead.Screen

/-!
# The event log on the screen

The room of the log is settled when a session is made. What the log keeps is the end of all that was
to be logged since then or since the last reset, and what the screen lists is the end of the log
(`Session.run_new_shows_newest`).
-/

namespace Playhead

theorem rtake_eq_drop_min {α : Type} (n : Nat) (l : List α) :
    l.rtake n = l.drop (l.length - min l.length n) := by
  rw [List.rtake]
  congr 1
  omega

/-- A list that is cut down to its end keeps its last element. -/
theorem getLast?_rtake {α : Type} {n : Nat} (hn : 0 < n) (l : List α) :
    (l.rtake n).getLast? = l.getLast? := by
  rw [List.rtake, List.getLast?_drop]
  split
  · next hle =>
    have hnil : l = [] := by
      rw [← List.length_eq_zero_iff]
      omega
    rw [hnil, List.getLast?_nil]
  · rfl

namespace Session

variable {s t : Session} {c d : Course} {effect : Bool}

/-- How many entries the log keeps, and whether routine ones are among them. -/
def room (s : Session) : Nat × Bool := (s.capacity, s.logsRoutine)

/-! ## The room stays -/

theorem room_record (s : Session) (e : Entry) : (s.record e).room = s.room := by
  by_cases hskips : (e.isRoutine && !s.logsRoutine) = true
  · rw [record, if_pos hskips]
  · rw [record, if_neg hskips]
    rfl

theorem room_foldl_record (entries : List Entry) (s : Session) :
    (entries.foldl record s).room = s.room := by
  induction entries generalizing s with
  | nil => rfl
  | cons e rest ih =>
    rw [List.foldl_cons, ih]
    exact room_record s e

theorem room_apply {step : Step} (happly : s.apply step = .ok (t, effect)) : t.room = s.room := by
  rw [apply] at happly
  split at happly
  · cases happly
  · cases happly
    rfl
  · cases happly
    exact room_foldl_record _ _

theorem room_applyAll {steps : List Step} (happly : s.applyAll steps = .ok t) :
    t.room = s.room := by
  induction steps generalizing s with
  | nil =>
    cases happly
    rfl
  | cons step rest ih =>
    rw [applyAll] at happly
    split at happly
    · cases happly
    · next u effect hstep =>
      split at happly
      · cases happly
        exact room_apply hstep
      · exact (ih happly).trans (room_apply hstep)

theorem room_tick {budget : Nat} (htick : s.tick budget = .ok t) : t.room = s.room := by
  rw [tick] at htick
  split at htick
  · cases htick
    rfl
  · split at htick
    · cases htick
      rfl
    · obtain ⟨⟨u, effect⟩, hstep, heq⟩ := map_eq_ok_iff.mp htick
      cases heq
      exact room_apply hstep

theorem room_runScript (hscript : s.runScript = .ok t) : t.room = s.room := by
  obtain ⟨u, hall, rfl⟩ := map_eq_ok_iff.mp hscript
  have hu := room_applyAll hall
  split <;> exact hu

theorem room_reset (s : Session) : s.reset.room = s.room := by
  rw [reset]
  split <;> rfl

theorem room_perform {a : Act} (hperform : s.perform a = .ok (t, effect)) : t.room = s.room := by
  cases a with
  | tick budget =>
    obtain ⟨u, htick, heq⟩ := map_eq_ok_iff.mp hperform
    cases heq
    exact room_tick htick
  | step budget => exact room_apply hperform
  | seekBy delta =>
    rw [perform, seekBy] at hperform
    exact room_apply hperform
  | togglePlay =>
    rw [perform, togglePlay] at hperform
    exact room_apply hperform
  | toggleClock =>
    cases hperform
    rfl
  | apply step => exact room_apply hperform
  | runScript =>
    obtain ⟨u, hscript, heq⟩ := map_eq_ok_iff.mp hperform
    cases heq
    exact room_runScript hscript
  | reset =>
    cases hperform
    exact room_reset s

theorem room_receive {input : Input} (hreceive : s.receive input = .ok t) : t.room = s.room := by
  cases input with
  | key settings key =>
    obtain ⟨⟨u, quits⟩, hpress, rfl⟩ := map_eq_ok_iff.mp hreceive
    rw [press] at hpress
    split at hpress
    · cases hpress
      rfl
    · obtain ⟨⟨u, effect⟩, hperform, heq⟩ := map_eq_ok_iff.mp hpress
      cases heq
      exact room_perform hperform
    · cases hpress
      rfl
  | act a =>
    obtain ⟨⟨u, effect⟩, hperform, rfl⟩ := map_eq_ok_iff.mp hreceive
    exact room_perform hperform
  | rewrite scenario =>
    cases hreceive
    rfl

theorem room_run {inputs : List Input} (hrun : s.run c inputs = .ok (t, d)) : t.room = s.room := by
  induction inputs generalizing s c with
  | nil =>
    cases hrun
    rfl
  | cons input rest ih =>
    rw [run] at hrun
    split at hrun
    · cases hrun
    · next u hreceive => exact (ih hrun).trans (room_receive hreceive)

/-! ## The newest entries -/

/-- Whatever more is recorded, the log is never overfull. -/
theorem LogFits.length_foldl_record_le (h : s.LogFits) (more : List Entry) :
    (more.foldl record s).log.length ≤ s.capacity := by
  rw [foldl_record h]
  exact length_rtake_le _ _

end Session

namespace Screen

/-- The event log lists the end of the session's log, with empty rows below. -/
theorem events_view (s : Session) (settings : Settings) (height : Nat) :
    (view s settings height).events =
      (s.log.rtake (eventRows height)).map Entry.line ++
        List.replicate (eventRows height - (s.log.rtake (eventRows height)).length) "" := by
  simp only [view, visibleEntries, List.length_map]
  rfl

end Screen

namespace Session

/-- What the event log keeps and what the screen lists of it, however a session is driven.

All that is to be logged are the entries of a runner that follows the course of the session, without
the routine ones if the settings leave these out. The log is the end of that as far as there is room
for it, also while the entries of one step are recorded; and the screen lists the end of the log as
far as there are rows, so that the newest entry is on it when there is a row at all. -/
theorem run_new_shows_newest {s t : Session} {c : Course} {scenario : Scenario} {ui : UiSettings}
    {inputs : List Input} (hnew : Session.new scenario ui = .ok s)
    (hrun : s.run { basis := scenario } inputs = .ok (t, c)) :
    ∃ fresh entries, Runner.ofScenario c.basis = .ok fresh ∧
      fresh.follow 0 c.steps = .ok (t.runner, entries) ∧
      ∀ logged, logged = entries.filter (·.isLogged ui.logTimeUpdates) →
        t.log = logged.drop (logged.length - min logged.length (max 1 ui.eventLogLen)) ∧
        (∀ more : List Entry, (more.foldl record t).log.length ≤ max 1 ui.eventLogLen) ∧
        ∀ settings height shown,
          shown = t.log.drop (t.log.length - min (height - 17) t.log.length) →
          (Screen.view t settings height).events =
            shown.map Entry.line ++ List.replicate (height - 17 - shown.length) "" ∧
          (1 ≤ height - 17 → shown.getLast? = logged.getLast?) := by
  have h : t.Follows c := (follows_new hnew).run hrun
  obtain ⟨scenario', -, rfl⟩ := eq_of_new hnew
  have hroom := room_run hrun
  simp only [room, Prod.mk.injEq] at hroom
  obtain ⟨fresh, entries, hfresh, hfollow, hlog⟩ := h.exists_follow
  refine ⟨fresh, entries, hfresh, hfollow, ?_⟩
  rintro logged rfl
  rw [hroom.1, hroom.2, Nat.max_comm] at hlog
  refine ⟨hlog.trans (rtake_eq_drop_min _ _), ?_, ?_⟩
  · intro more
    rw [Nat.max_comm, ← hroom.1]
    exact h.logFits.length_foldl_record_le more
  · intro settings height shown hshown
    rw [Nat.min_comm, ← rtake_eq_drop_min] at hshown
    subst hshown
    refine ⟨Screen.events_view t settings height, ?_⟩
    intro hrow
    rw [getLast?_rtake hrow, hlog, getLast?_rtake (Nat.le_max_left _ _)]

/-- A log with room for two entries: after a script that is given up, a reset, the script again and
a rewind, three of four entries are to be logged, and the screen has a row for the last of them. -/
theorem run_new_shows_newest_of_three :
    let inputs : List Input :=
      [.act .runScript, .act .reset, .act .runScript, .key {} { code := .char 'r' }]
    let steps : List Step :=
      [.command .play, .advance 5 2, .expect { position := some 9 }, .command .rewind]
    ∃ s t fresh entries logged,
      Session.new (hasty 40) { eventLogLen := 2 } = .ok s ∧
      s.run { basis := hasty 40 } inputs = .ok (t, ⟨hasty 40, steps⟩) ∧
      Runner.ofScenario (hasty 40) = .ok fresh ∧
      fresh.follow 0 steps = .ok (t.runner, entries) ∧
      logged = entries.filter (·.isLogged false) ∧ t.log.length = 2 ∧
      t.log = logged.drop (logged.length - min logged.length 2) ∧
      (Screen.view t {} 18).events = (t.log.drop 1).map Entry.line ∧
      (t.log.drop 1).getLast? = logged.getLast? := by
  intro inputs steps
  have hcontent : (hasty 40).content.resolve = .ok { length := .finite 40 } := by rfl
  have hnew := new_eq (Scenario.ofScenario_of_resolve hcontent) { eventLogLen := 2 }
  obtain ⟨s, hs⟩ : ∃ s, Session.new (hasty 40) { eventLogLen := 2 } = .ok s := ⟨_, hnew⟩
  have hcourse : (s.run { basis := hasty 40 } inputs).map (fun r => (r.1.log.length, r.2)) =
      .ok (2, ⟨hasty 40, steps⟩) := by
    rw [hnew] at hs
    cases hs
    cbv
  obtain ⟨⟨t, c⟩, hrun, heq⟩ := map_eq_ok_iff.mp hcourse
  obtain ⟨hlength, rfl⟩ := Prod.mk.inj heq
  obtain ⟨fresh, entries, hfresh, hfollow, hshows⟩ := run_new_shows_newest hs hrun
  obtain ⟨hlog, -, hscreen⟩ := hshows _ rfl
  obtain ⟨hevents, hnewest⟩ := hscreen {} 18 (t.log.drop 1) (by rw [hlength]; rfl)
  refine ⟨s, t, fresh, entries, _, hs, hrun, hfresh, hfollow, rfl, hlength, hlog, ?_,
    hnewest (by decide)⟩
  rw [hevents, List.length_drop, hlength]
  exact List.append_nil _

end Session

end Playhead

import Playhead.Proofs.Session.EventLog

/-!
# Resetting a session

A reset either makes a session new or only leaves a notice. What comes of this shows later, so two
sessions are compared by all that is seen of them under further calls (`Session.seen`): a session
that was reset is seen as one that is made for its scenario, but for the path; and where the
scenario describes no content, as one that was not reset, but for the notice
(`Session.reset_all_or_nothing`).
-/

namespace Playhead

/-- Answers that are alike stay alike when less is kept of them. -/
theorem map_comp_congr {α β γ : Type} {f : α → β} {x y : Except Fault α} (g : β → γ)
    (h : x.map f = y.map f) : x.map (g ∘ f) = y.map (g ∘ f) := by
  rw [← map_map, ← map_map, h]

/-- A call on a session: an input, or a setting that its owner makes. -/
inductive Call where
  | input (input : Input)
  /-- Note where the scenario was loaded from. -/
  | locate (path : String)
  /-- Let ticks advance the player, or not. -/
  | setClock (running : Bool)
  deriving DecidableEq, Repr

namespace Session

/-- The session after a call, and what the call returns. Calls that return nothing return `true`. -/
def answer (s : Session) : Call → Except Fault (Session × Bool)
  | .input (.key settings key) => s.press settings key
  | .input (.act a) => s.perform a
  | .input (.rewrite scenario) => .ok ({ s with scenario }, true)
  | .locate path => .ok ({ s with path := some path }, true)
  | .setClock running => .ok ({ s with clockRunning := running }, true)

/-- A session that was made with these settings, after any calls. -/
inductive Reached (ui : UiSettings) : Session → Prop
  | new {scenario : Scenario} {s : Session} :
      Session.new scenario ui = .ok s → Reached ui s
  | answer {s t : Session} {call : Call} {returned : Bool} :
      Reached ui s → s.answer call = .ok (t, returned) → Reached ui t

/-- What is seen of a session under calls: behind each of them the session, as far as the view
shows it, and what the call returned. -/
def seen (view : Session → Session) (s : Session) : List Call → Except Fault (List (Session × Bool))
  | [] => .ok []
  | call :: rest =>
    match s.answer call with
    | .error fault => .error fault
    | .ok (t, returned) => (t.seen view rest).map ((view t, returned) :: ·)

variable {s t : Session} {view : Session → Session}

/-! ## Views -/

/-- What the view hides has no part in what calls return, nor in what the view shows behind them. -/
structure Overlooks (view : Session → Session) : Prop where
  view_view : ∀ s, view (view s) = view s
  runner_eq : ∀ s, (view s).runner = s.runner
  clockRunning_eq : ∀ s, (view s).clockRunning = s.clockRunning
  apply : ∀ s step,
    ((view s).apply step).map (Prod.map view id) = (s.apply step).map (Prod.map view id)
  runScript : ∀ s, (view s).runScript.map view = s.runScript.map view
  reset : ∀ s, view (view s).reset = view s.reset
  setClock : ∀ s running,
    view { view s with clockRunning := running } = view { s with clockRunning := running }
  rewrite : ∀ s scenario, view { view s with scenario } = view { s with scenario }
  locate : ∀ s path, view { view s with path } = view { s with path }

namespace Overlooks

variable (h : Overlooks view)

include h

theorem tick (s : Session) (budget : Nat) :
    ((view s).tick budget).map view = (s.tick budget).map view := by
  have hended : (view s).runner.player.isEnded = s.runner.player.isEnded :=
    congrArg (·.player.isEnded) (h.runner_eq s)
  rw [Session.tick, Session.tick, h.clockRunning_eq, hended]
  split
  · exact congrArg Except.ok (h.view_view s)
  · split
    · exact congrArg Except.ok (h.setClock s false)
    · rw [map_map, map_map]
      exact map_comp_congr Prod.fst (h.apply s (.advance budget 1))

theorem perform (s : Session) (a : Act) :
    ((view s).perform a).map (Prod.map view id) = (s.perform a).map (Prod.map view id) := by
  cases a with
  | tick budget =>
    rw [Session.perform, Session.perform, map_map, map_map]
    exact map_comp_congr (·, true) (h.tick s budget)
  | step budget => exact h.apply s _
  | seekBy delta =>
    rw [Session.perform, Session.perform, seekBy, seekBy, offsetBy, offsetBy, h.runner_eq]
    exact h.apply s _
  | togglePlay =>
    rw [Session.perform, Session.perform, togglePlay, togglePlay, h.runner_eq]
    exact h.apply s _
  | toggleClock =>
    have hclock := h.setClock s !s.clockRunning
    rw [Session.perform, Session.perform, toggleClock, toggleClock, h.clockRunning_eq]
    exact congrArg (fun t => Except.ok (t, true)) hclock
  | apply step => exact h.apply s step
  | runScript =>
    rw [Session.perform, Session.perform, map_map, map_map]
    exact map_comp_congr (·, true) (h.runScript s)
  | reset => exact congrArg (fun t => Except.ok (t, true)) (h.reset s)

theorem press (s : Session) (settings : Settings) (key : Key) :
    ((view s).press settings key).map (Prod.map view id) =
      (s.press settings key).map (Prod.map view id) := by
  unfold Session.press
  split
  · exact congrArg (fun t => Except.ok (t, true)) (h.view_view s)
  · next a _ =>
    rw [map_map, map_map]
    exact map_comp_congr (fun r => (r.1, false)) (h.perform s a)
  · exact congrArg (fun t => Except.ok (t, false)) (h.view_view s)

theorem answer (s : Session) (call : Call) :
    ((view s).answer call).map (Prod.map view id) = (s.answer call).map (Prod.map view id) := by
  cases call with
  | input input =>
    cases input with
    | key settings key => exact h.press s settings key
    | act a => exact h.perform s a
    | rewrite scenario => exact congrArg (fun t => Except.ok (t, true)) (h.rewrite s scenario)
  | locate path => exact congrArg (fun t => Except.ok (t, true)) (h.locate s path)
  | setClock running => exact congrArg (fun t => Except.ok (t, true)) (h.setClock s running)

/-- Sessions that look alike are seen alike under all further calls. -/
theorem seen_congr (hst : view s = view t) (calls : List Call) :
    s.seen view calls = t.seen view calls := by
  induction calls generalizing s t with
  | nil => rfl
  | cons call rest ih =>
    -- Both answer as the session does that has only what the view shows.
    have hanswer : (s.answer call).map (Prod.map view id) =
        (t.answer call).map (Prod.map view id) := by
      rw [← h.answer s, hst, h.answer t]
    rw [seen, seen]
    cases hs : s.answer call with
    | error fault =>
      rw [hs, map_error, eq_comm, map_eq_error_iff] at hanswer
      rw [hanswer]
    | ok r =>
      rw [hs, map_ok, eq_comm, map_eq_ok_iff] at hanswer
      obtain ⟨r', ht, heq⟩ := hanswer
      obtain ⟨hview, hreturned⟩ := Prod.mk.inj heq
      rw [ht]
      dsimp only
      rw [← ih hview, ← hview]
      dsimp only [id] at hreturned
      rw [hreturned]

end Overlooks

/-! ## What a step leaves alone -/

/-- The session after a step that the runner has taken, whether or not its log has room. -/
def took (s : Session) (runner : Runner) : Except Unmet (List Entry) → Session
  | .ok entries => entries.foldl record { s with runner, applied := s.applied + 1 }
  | .error unmet => { s with runner, applied := s.applied + 1, notice := some (.unmet unmet) }

theorem apply_eq_took (s : Session) (step : Step) :
    s.apply step = (s.runner.apply s.applied step).map fun (runner, result) =>
      (s.took runner result, effective result) := by
  rw [apply]
  cases s.runner.apply s.applied step with
  | error fault => rfl
  | ok r =>
    obtain ⟨runner, result⟩ := r
    cases result <;> rfl

/-- A session with another path and another notice. -/
def framed (s : Session) (path : Option String) (notice : Option Notice) : Session :=
  { s with path, notice }

theorem record_framed (s : Session) (path : Option String) (notice : Option Notice) (e : Entry) :
    (s.framed path notice).record e = (s.record e).framed path notice := by
  by_cases hskips : (e.isRoutine && !s.logsRoutine) = true
  · rw [record, record, if_pos hskips, framed, if_pos hskips]
  · rw [record, record, if_neg hskips, framed, if_neg hskips]
    rfl

theorem foldl_record_framed (entries : List Entry) (s : Session) (path : Option String)
    (notice : Option Notice) :
    entries.foldl record (s.framed path notice) =
      (entries.foldl record s).framed path notice := by
  induction entries generalizing s with
  | nil => rfl
  | cons e rest ih => rw [List.foldl_cons, List.foldl_cons, record_framed, ih]

theorem notice_foldl_record (entries : List Entry) (s : Session) :
    (entries.foldl record s).notice = s.notice := by
  have hnotice := congrArg Session.notice (foldl_record_framed entries s s.path s.notice)
  exact hnotice

theorem path_foldl_record (entries : List Entry) (s : Session) :
    (entries.foldl record s).path = s.path := by
  have hpath := congrArg Session.path (foldl_record_framed entries s s.path s.notice)
  exact hpath

/-! ## The path -/

/-- A session without its path. -/
def unplaced (s : Session) : Session := { s with path := none }

theorem took_unplaced (s : Session) (runner : Runner) (result : Except Unmet (List Entry)) :
    s.unplaced.took runner result = (s.took runner result).unplaced := by
  cases result with
  | error unmet => rfl
  | ok entries =>
    -- Recording keeps the notice, so only the path is another one in the end.
    let taken := { s with runner, applied := s.applied + 1 }
    calc entries.foldl record (taken.framed none taken.notice)
      _ = (entries.foldl record taken).framed none taken.notice :=
        foldl_record_framed entries taken none taken.notice
      _ = (entries.foldl record taken).framed none (entries.foldl record taken).notice := by
        rw [notice_foldl_record]

/-- A step does not look at the path, and keeps it. -/
theorem apply_unplaced (s : Session) (step : Step) :
    s.unplaced.apply step = (s.apply step).map (Prod.map unplaced id) := by
  rw [apply_eq_took, apply_eq_took, map_map]
  exact map_congr fun r _ => Prod.ext (took_unplaced s r.1 r.2) rfl

theorem applyAll_unplaced (s : Session) (steps : List Step) :
    s.unplaced.applyAll steps = (s.applyAll steps).map unplaced := by
  induction steps generalizing s with
  | nil => rfl
  | cons step rest ih =>
    rw [applyAll, applyAll, apply_unplaced]
    cases s.apply step with
    | error fault => rfl
    | ok r =>
      obtain ⟨t, effect⟩ := r
      dsimp only [map_ok, Prod.map]
      by_cases hnotice : t.notice.isSome = true
      · rw [if_pos hnotice, if_pos (show t.unplaced.notice.isSome = true from hnotice)]
        rfl
      · rw [if_neg hnotice, if_neg (show ¬t.unplaced.notice.isSome = true from hnotice), ih]

theorem runScript_unplaced (s : Session) :
    s.unplaced.runScript = s.runScript.map unplaced := by
  have hall := applyAll_unplaced { s with notice := none } s.scenario.steps
  unfold runScript
  rw [show applyAll { s.unplaced with notice := none } s.unplaced.scenario.steps =
    _ from hall, map_map, map_map]
  refine map_congr fun t _ => ?_
  dsimp only [Function.comp]
  split
  · next hnotice => rw [if_pos (show t.notice.isSome = true from hnotice)]
  · next hnotice =>
    rw [if_neg (show ¬t.notice.isSome = true from hnotice)]
    rfl

theorem overlooks_unplaced : Overlooks unplaced where
  view_view _ := rfl
  runner_eq _ := rfl
  clockRunning_eq _ := rfl
  apply s step := by
    rw [apply_unplaced, map_map]
    rfl
  runScript s := by
    rw [runScript_unplaced, map_map]
    rfl
  reset s := by
    unfold reset
    rw [show s.unplaced.scenario = s.scenario from rfl]
    split <;> rfl
  setClock _ _ := rfl
  rewrite _ _ := rfl
  locate _ _ := rfl

/-! ## The notice -/

/-- A session without its notice. -/
def unnoted (s : Session) : Session := { s with notice := none }

theorem unnoted_took (s : Session) (runner : Runner) (result : Except Unmet (List Entry)) :
    (s.unnoted.took runner result).unnoted = (s.took runner result).unnoted := by
  cases result with
  | error unmet => rfl
  | ok entries =>
    let taken := { s with runner, applied := s.applied + 1 }
    calc (entries.foldl record (taken.framed taken.path none)).unnoted
      _ = ((entries.foldl record taken).framed taken.path none).unnoted := by
        rw [foldl_record_framed]
      _ = ((entries.foldl record taken).framed (entries.foldl record taken).path none).unnoted := by
        rw [path_foldl_record]

/-- A step leaves a notice of its own or none; it does not look at the one that is there. -/
theorem apply_unnoted (s : Session) (step : Step) :
    (s.unnoted.apply step).map (Prod.map unnoted id) =
      (s.apply step).map (Prod.map unnoted id) := by
  rw [apply_eq_took, apply_eq_took, map_map, map_map]
  exact map_congr fun r _ => Prod.ext (unnoted_took s r.1 r.2) rfl

theorem overlooks_unnoted : Overlooks unnoted where
  view_view _ := rfl
  runner_eq _ := rfl
  clockRunning_eq _ := rfl
  apply := apply_unnoted
  -- A script begins by taking the notice away.
  runScript _ := rfl
  reset s := by
    unfold reset
    rw [show s.unnoted.scenario = s.scenario from rfl]
    split <;> rfl
  setClock _ _ := rfl
  rewrite _ _ := rfl
  locate _ _ := rfl

/-! ## Sessions that were reset -/

theorem room_answer {call : Call} {returned : Bool} (hanswer : s.answer call = .ok (t, returned)) :
    t.room = s.room := by
  cases call with
  | input input =>
    cases input with
    | key settings key =>
      have hreceive : s.receive (.key settings key) = .ok t :=
        congrArg (Except.map Prod.fst) hanswer
      exact room_receive hreceive
    | act a => exact room_perform hanswer
    | rewrite scenario =>
      cases hanswer
      rfl
  | locate path =>
    cases hanswer
    rfl
  | setClock running =>
    cases hanswer
    rfl

/-- The room of the log is what the settings gave it, whatever is called. -/
theorem Reached.room_eq {ui : UiSettings} (h : Reached ui s) :
    s.room = (max ui.eventLogLen 1, ui.logTimeUpdates) := by
  induction h with
  | new hnew =>
    obtain ⟨fresh, -, rfl⟩ := eq_of_new hnew
    rfl
  | answer _ hanswer ih => rw [room_answer hanswer, ih]

/-- Resetting a session is all or nothing. Where its scenario describes content, a session with the
same settings can be made for the scenario, and is told from the reset one by nothing that either
returns, shows or comes to afterwards, except the path. Where it does not, the reset leaves a notice
that says so, and what the session returns, shows and comes to afterwards is, except for the notice,
what it would have been without the reset. -/
theorem reset_all_or_nothing {ui : UiSettings} (hreached : Reached ui s) :
    (∀ content, s.scenario.content.resolve = .ok content →
      ∃ fresh, Session.new s.scenario ui = .ok fresh ∧ s.reset.unplaced = fresh.unplaced ∧
        ∀ calls, s.reset.seen unplaced calls = fresh.seen unplaced calls) ∧
    (∀ flaw, s.scenario.content.resolve = .error flaw →
      s.reset = { s with notice := some (.flawed flaw) } ∧
        ∀ calls, s.reset.seen unnoted calls = s.seen unnoted calls) := by
  have hroom := hreached.room_eq
  simp only [room, Prod.mk.injEq] at hroom
  constructor
  · intro content hcontent
    have hrunner := Scenario.ofScenario_of_resolve hcontent
    have hreset : s.reset.unplaced =
        { scenario := s.scenario
          runner := { player := .ofTrack s.scenario.track content }
          capacity := max ui.eventLogLen 1
          logsRoutine := ui.logTimeUpdates } := by
      rw [reset, hrunner, ← hroom.1, ← hroom.2]
      rfl
    exact ⟨_, new_eq hrunner ui, hreset, overlooks_unplaced.seen_congr hreset⟩
  · intro flaw hflaw
    have hreset : s.reset = { s with notice := some (.flawed flaw) } := by
      rw [reset, Runner.ofScenario, hflaw]
      rfl
    have hunnoted : s.reset.unnoted = s.unnoted := by
      rw [hreset]
      rfl
    exact ⟨hreset, overlooks_unnoted.seen_congr hunnoted⟩

/-- A session whose script was given up is written other content: first content with an end, for
which it can be reset, and then content with a negative length. -/
theorem reset_all_or_nothing_behind_script :
    let calls : List Call := [.input (.act .runScript), .setClock true, .input (.act (.tick 7))]
    ∃ s t fresh, Reached {} s ∧ s.applied = 3 ∧ s.path = some "hasty.toml" ∧
      s.notice = some (.unmet ⟨2, [.position 5 9]⟩) ∧ Session.new (hasty 60) {} = .ok fresh ∧
      s.reset.unplaced = fresh.unplaced ∧
      s.reset.seen unplaced calls = fresh.seen unplaced calls ∧
      t = { s with scenario := hasty (-2) } ∧ Reached {} t ∧
      t.reset = { t with notice := some (.flawed (.contentLength (-2))) } ∧
      t.reset.seen unnoted calls = t.seen unnoted calls := by
  intro calls
  have hcontent : (hasty 40).content.resolve = .ok { length := .finite 40 } := by rfl
  have hnew := new_eq (Scenario.ofScenario_of_resolve hcontent) {}
  obtain ⟨r, hs⟩ : ∃ r, Session.new (hasty 40) {} = .ok r := ⟨_, hnew⟩
  have hscript : (perform { r with path := some "hasty.toml" } .runScript).map
      (fun q : Session × Bool => (q.1.applied, q.1.path, q.1.notice)) =
      .ok (3, some "hasty.toml", some (.unmet ⟨2, [.position 5 9]⟩)) := by
    rw [hnew] at hs
    cases hs
    cbv
  obtain ⟨⟨q, returned⟩, hperform, hq⟩ := map_eq_ok_iff.mp hscript
  simp only [Prod.mk.injEq] at hq
  have hlocate : r.answer (.locate "hasty.toml") =
      .ok ({ r with path := some "hasty.toml" }, true) := rfl
  have hscripted : answer { r with path := some "hasty.toml" } (.input (.act .runScript)) =
      .ok (q, returned) := hperform
  have hrewrite : ∀ (s : Session) (scenario : Scenario), s.answer (.input (.rewrite scenario)) =
      .ok ({ s with scenario }, true) := fun _ _ => rfl
  have hreached : Reached {} { q with scenario := hasty 60 } :=
    (((Reached.new hs).answer hlocate).answer hscripted).answer (hrewrite q (hasty 60))
  have hflawed : Reached {} { q with scenario := hasty (-2) } :=
    hreached.answer (hrewrite { q with scenario := hasty 60 } (hasty (-2)))
  obtain ⟨fresh, hfresh, hreset, hseen⟩ :=
    (reset_all_or_nothing hreached).1 { length := .finite 60 } rfl
  obtain ⟨hnotice, hkept⟩ := (reset_all_or_nothing hflawed).2 (.contentLength (-2)) rfl
  exact ⟨_, _, fresh, hreached, hq.1, hq.2.1, hq.2.2, hfresh, hreset, hseen calls, rfl, hflawed,
    hnotice, hkept calls⟩

end Session

end Playhead

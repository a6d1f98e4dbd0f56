import Playhead.Proofs.Player.Endless
import Playhead.Proofs.Player.Transitions

/-!
# The order of events

`Player.history` is all that happens to a player while actions are carried out, moment by moment; an
action that is never answered ends it, which takes a track that stalls. `InOrder` says in which
order its events come: readiness once and before anything else, a crash once and nothing behind it,
and between two ends of the track a command that reopens it and one that starts it again. The
history of every new player is in order (`history_new_inOrder`).
-/

namespace Playhead

/-- One action on a player, with its reply. -/
structure Moment where
  before : Player
  action : Action
  reply : Reply
  after : Player
  deriving DecidableEq, Repr

/-- The event that a reply reports. -/
def Reply.event? : Reply → Option Event
  | .acted _ => none
  | .reported report => some report.event

theorem Reply.eq_reported_of_event? {reply : Reply} {e : Event} (h : reply.event? = some e) :
    ∃ elapsed, reply = .reported ⟨e, elapsed⟩ := by
  cases reply with
  | acted effect => cases h
  | reported report =>
    cases h
    exact ⟨report.elapsed, rfl⟩

namespace Action

def isAdvance : Action → Bool
  | .command _ => false
  | .advance _ => true

/-- The reply of a player to which nothing can be done. -/
def refusal : Action → Reply
  | .command _ => .acted false
  | .advance _ => .reported ⟨.noReport, 0⟩

end Action

namespace Moment

def reports (m : Moment) (e : Event) : Bool := m.reply.event? == some e

/-- A command that brings a finished track back. -/
inductive Reopens : Moment → Prop where
  | rewind {p q : Player} (hdone : p.lifecycle = .done) :
      Reopens ⟨p, .command .rewind, .acted true, q⟩
  | seek {p q : Player} {offset : Int} (hdone : p.lifecycle = .done) :
      Reopens ⟨p, .command (.seek offset), .acted true, q⟩
  | clearRepeat {p q : Player} (hdone : p.lifecycle = .done) :
      Reopens ⟨p, .command .clearRepeat, .acted true, q⟩

/-- A play command that had an effect. -/
inductive Starts : Moment → Prop where
  | play {p q : Player} : Starts ⟨p, .command .play, .acted true, q⟩

end Moment

/-- The events of these moments come in their order. -/
structure InOrder (ms : List Moment) : Prop where
  ready_once : ms.countP (·.reports .trackReady) ≤ 1
  /-- Before it is ready a track does not end, and time does not move its play head. -/
  before_ready : ∀ pre m post, ms = pre ++ m :: post →
    (∀ m' ∈ pre, m'.reports .trackReady = false) →
      m.reports .trackDone = false ∧ m.reports .trackFail = false ∧
        (m.action.isAdvance = true →
          m.after.position = m.before.position ∧ m.after.plays = m.before.plays)
  fail_once : ms.countP (·.reports .trackFail) ≤ 1
  /-- A track that crashed refuses whatever is done to it, and stays as it is. -/
  after_fail : ∀ pre m post, ms = pre ++ m :: post → m.reports .trackFail = true →
    (∀ m' ∈ post, m'.before = m.after ∧ m'.reply = m'.action.refusal ∧ m'.after = m.after) ∧
      ∀ actions, m.after.run actions = some (actions.map Action.refusal, m.after)
  /-- A track that is done twice was reopened and then started between. -/
  between_done : ∀ pre m mid m' post, ms = pre ++ m :: (mid ++ m' :: post) →
    m.reports .trackDone = true → m'.reports .trackDone = true →
      ∃ pre' r mid' s post', mid = pre' ++ r :: (mid' ++ s :: post') ∧ r.Reopens ∧ s.Starts

namespace Player

variable {p q r : Player} {a : Action} {reply : Reply} {ms pre post : List Moment} {m : Moment}

/-- What happens to a player while actions are carried out. -/
def history (p : Player) : List Action → List Moment
  | [] => []
  | a :: rest =>
    match p.act a with
    | none => []
    | some (reply, q) => ⟨p, a, reply, q⟩ :: q.history rest

/-- Moments that follow one another, from the first player to the last. -/
inductive Trace : Player → List Moment → Player → Prop where
  | nil {p : Player} : Trace p [] p
  | cons {p q r : Player} {a : Action} {reply : Reply} {ms : List Moment}
      (hact : p.act a = some (reply, q)) (hrest : Trace q ms r) :
      Trace p (⟨p, a, reply, q⟩ :: ms) r

theorem exists_trace_history (p : Player) (actions : List Action) :
    ∃ q, Trace p (p.history actions) q := by
  induction actions generalizing p with
  | nil => exact ⟨p, .nil⟩
  | cons a rest ih =>
    rw [history]
    split
    · exact ⟨p, .nil⟩
    · next reply q hact =>
      obtain ⟨r, hrest⟩ := ih q
      exact ⟨r, .cons hact hrest⟩

/-- Actions that are all answered leave nothing out of the history. -/
theorem history_of_run {actions : List Action} {replies : List Reply}
    (h : p.run actions = some (replies, q)) :
    (p.history actions).map Moment.action = actions ∧
      (p.history actions).map Moment.reply = replies ∧ Trace p (p.history actions) q := by
  induction actions generalizing p replies with
  | nil =>
    obtain ⟨rfl, rfl⟩ := run_nil_eq_some_iff.mp h
    exact ⟨rfl, rfl, .nil⟩
  | cons a rest ih =>
    obtain ⟨reply, r, more, hact, hrest, rfl⟩ := run_cons_eq_some_iff.mp h
    obtain ⟨hactions, hreplies, htrace⟩ := ih hrest
    simp only [history, hact]
    exact ⟨congrArg (a :: ·) hactions, congrArg (reply :: ·) hreplies, .cons hact htrace⟩

theorem trace_cons_iff :
    Trace p (m :: ms) r ↔ p = m.before ∧ m.before.act m.action = some (m.reply, m.after) ∧
      Trace m.after ms r := by
  constructor
  · intro h
    cases h with
    | cons hact hrest => exact ⟨rfl, hact, hrest⟩
  · rintro ⟨rfl, hact, hrest⟩
    exact .cons hact hrest

theorem trace_append_iff : Trace p (pre ++ ms) r ↔ ∃ q, Trace p pre q ∧ Trace q ms r := by
  induction pre generalizing p with
  | nil =>
    constructor
    · intro h
      exact ⟨p, .nil, h⟩
    · rintro ⟨q, hnil, h⟩
      cases hnil
      exact h
  | cons m pre ih =>
    simp only [List.cons_append, trace_cons_iff, ih]
    grind

theorem Trace.coherent (h : Trace p ms q) (hp : p.Coherent) : q.Coherent := by
  induction h with
  | nil => exact hp
  | cons hact _ ih => exact ih (hp.act hact)

/-- Where something ceases to hold, there is a moment at which it does. -/
theorem Trace.exists_change {P : Player → Prop} (h : Trace p ms q) (hp : P p) (hq : ¬P q) :
    ∃ pre m post, ms = pre ++ m :: post ∧ Trace p pre m.before ∧ P m.before ∧
      m.before.act m.action = some (m.reply, m.after) ∧ ¬P m.after ∧ Trace m.after post q := by
  induction h with
  | nil => exact absurd hp hq
  | @cons p q r a reply ms hact hrest ih =>
    by_cases hq' : P q
    · obtain ⟨pre, m, post, rfl, hpre, hrest⟩ := ih hq' hq
      exact ⟨⟨p, a, reply, q⟩ :: pre, m, post, rfl, .cons hact hpre, hrest⟩
    · exact ⟨[], ⟨p, a, reply, q⟩, ms, rfl, .nil, hp, hact, hq', hrest⟩

/-! ## Events that come once -/

/-- An event that sets what nothing ever resets comes at most once. -/
theorem Trace.countP_reports_le_one {e : Event} {P : Player → Prop}
    (hset : ∀ {p q : Player} {a : Action} {reply : Reply}, p.act a = some (reply, q) →
      reply.event? = some e → ¬P p ∧ P q)
    (hkeep : ∀ {p q : Player} {a : Action} {reply : Reply}, p.act a = some (reply, q) → P p → P q)
    (h : Trace p ms q) : ms.countP (·.reports e) ≤ 1 ∧ (P p → ms.countP (·.reports e) = 0) := by
  -- The second half, that nothing is left to count once it is set, is what the induction needs.
  induction h with
  | nil => simp
  | @cons p q r a reply ms hact hrest ih =>
    by_cases hevent : reply.event? = some e
    · obtain ⟨hp, hq⟩ := hset hact hevent
      have hcount : (⟨p, a, reply, q⟩ :: ms).countP (·.reports e) = ms.countP (·.reports e) + 1 :=
        List.countP_cons_of_pos (by simpa [Moment.reports] using hevent)
      rw [hcount, ih.2 hq]
      exact ⟨Nat.le_refl _, fun hp' => absurd hp' hp⟩
    · have hcount : (⟨p, a, reply, q⟩ :: ms).countP (·.reports e) = ms.countP (·.reports e) :=
        List.countP_cons_of_neg (by simpa [Moment.reports] using hevent)
      rw [hcount]
      exact ⟨ih.1, fun hp => ih.2 (hkeep hact hp)⟩

/-! ## Readiness -/

theorem perform_announced (p : Player) (c : Command) :
    (p.perform c).1.announced = p.announced := by
  cases c <;>
    simp only [perform, Player.play, Player.pause, Player.rewind, Player.finish, Player.seek,
      Player.clearRepeat] <;>
    grind

theorem announced_of_act (hact : p.act a = some (reply, q)) :
    if reply.event? = some .trackReady then p.announced = false ∧ q.announced = true
    else q.announced = p.announced := by
  cases a with
  | command c =>
    obtain ⟨rfl, rfl⟩ := act_command_eq_some_iff.mp hact
    exact p.perform_announced c
  | advance budget =>
    obtain ⟨report, hadvance, rfl⟩ := act_advance_eq_some_iff.mp hact
    simp only [Reply.event?, Option.some.injEq]
    cases advance_eq_iff.mp hadvance with
    | ready hactive hdue hfresh => exact ⟨hfresh, rfl⟩
    | walk hplaying hdue hready hwindow hwalk =>
      obtain ⟨-, -, hkept⟩ := walk_frame hwalk
      cases ends_of_walk hwalk <;> exact hkept
    | _ => rfl

theorem ready_of_act (hact : p.act a = some (reply, q)) (hevent : reply.event? = some .trackReady) :
    ¬p.announced = true ∧ q.announced = true := by
  have h := announced_of_act hact
  rw [if_pos hevent] at h
  exact ⟨by simp [h.1], h.2⟩

theorem announced_act (hact : p.act a = some (reply, q)) (hready : p.announced = true) :
    q.announced = true := by
  have h := announced_of_act hact
  split at h
  · exact h.2
  · exact h.trans hready

theorem Trace.announced_eq (h : Trace p ms q) (hnone : ∀ m ∈ ms, m.reports .trackReady = false) :
    q.announced = p.announced := by
  induction h with
  | nil => rfl
  | cons hact _ ih =>
    have hhead := hnone _ (List.mem_cons_self ..)
    have hkept := announced_of_act hact
    rw [if_neg (by simpa [Moment.reports] using hhead)] at hkept
    exact (ih fun m hm => hnone m (List.mem_cons_of_mem _ hm)).trans hkept

theorem act_of_fresh (hact : p.act a = some (reply, q)) (hfresh : p.announced = false) :
    reply.event? ≠ some .trackDone ∧ reply.event? ≠ some .trackFail ∧
      (a.isAdvance = true → q.position = p.position ∧ q.plays = p.plays) := by
  cases a with
  | command c =>
    obtain ⟨rfl, -⟩ := act_command_eq_some_iff.mp hact
    simp [Reply.event?, Action.isAdvance]
  | advance budget =>
    obtain ⟨report, hadvance, rfl⟩ := act_advance_eq_some_iff.mp hact
    cases advance_eq_iff.mp hadvance with
    | ended => simp [Reply.event?]
    | buffer => simp [Reply.event?]
    | ready => simp [Reply.event?]
    | idle _ _ hready => simp [hfresh] at hready
    | skip _ _ hready => simp [hfresh] at hready
    | walk _ _ hready => simp [hfresh] at hready

/-! ## Crashes -/

theorem lifecycle_of_trackFail (hact : p.act a = some (reply, q))
    (hevent : reply.event? = some .trackFail) : p.lifecycle = .playing ∧ q.lifecycle = .failed := by
  obtain ⟨elapsed, rfl⟩ := Reply.eq_reported_of_event? hevent
  obtain ⟨budget, -, hreports⟩ := reports_act hact
  cases hreports with
  | fail hplaying hlimit hfailed => exact ⟨hplaying, hfailed⟩

theorem act_of_failed (h : p.lifecycle = .failed) (a : Action) :
    p.act a = some (a.refusal, p) := by
  cases a with
  | command c =>
    rw [act_command]
    cases c <;>
      simp [perform, Player.play, Player.pause, Player.rewind, Player.finish, Player.seek,
        Player.clearRepeat, canRewind, isEnded, Lifecycle.isEnded, Action.refusal, h]
  | advance budget =>
    have hended : p.isEnded = true := isEnded_iff.mpr (.inr h)
    exact act_advance_eq_some_iff.mpr ⟨_, advance_eq_iff.mpr (.ended hended), rfl⟩

/-- A player that refuses every action refuses them all in a row. -/
theorem run_of_refused (h : ∀ a, p.act a = some (a.refusal, p)) (actions : List Action) :
    p.run actions = some (actions.map Action.refusal, p) := by
  induction actions with
  | nil => rfl
  | cons a rest ih => exact run_cons_eq_some_iff.mpr ⟨_, p, _, h a, ih, rfl⟩

theorem run_of_failed (h : p.lifecycle = .failed) (actions : List Action) :
    p.run actions = some (actions.map Action.refusal, p) :=
  run_of_refused (act_of_failed h) actions

theorem failed_act (hact : p.act a = some (reply, q)) (h : p.lifecycle = .failed) :
    q.lifecycle = .failed := by
  rw [act_of_failed h] at hact
  cases hact
  exact h

theorem Trace.refused_of_failed (h : Trace p ms q) (hfailed : p.lifecycle = .failed) :
    ∀ m ∈ ms, m.before = p ∧ m.reply = m.action.refusal ∧ m.after = p := by
  induction h with
  | nil => simp
  | cons hact hrest ih =>
    rw [act_of_failed hfailed] at hact
    cases hact
    intro m hm
    rcases List.mem_cons.mp hm with rfl | hm
    · exact ⟨rfl, rfl, rfl⟩
    · exact ih hfailed m hm

/-! ## Ends -/

theorem lifecycle_of_trackDone (hact : p.act a = some (reply, q))
    (hevent : reply.event? = some .trackDone) : p.lifecycle = .playing ∧ q.lifecycle = .done := by
  obtain ⟨elapsed, rfl⟩ := Reply.eq_reported_of_event? hevent
  obtain ⟨budget, -, hreports⟩ := reports_act hact
  cases hreports with
  | done hplaying hext hdone => exact ⟨hplaying, hdone⟩

/-- A track is no longer done once it is reopened, and then it is idle. -/
theorem Coherent.reopens_of_leave (h : m.before.Coherent)
    (hact : m.before.act m.action = some (m.reply, m.after)) (hdone : m.before.lifecycle = .done)
    (hleave : m.after.lifecycle ≠ .done) : m.Reopens ∧ m.after.lifecycle = .idle := by
  have hchange := h.changes_act hact (hdone ▸ hleave)
  obtain ⟨p, a, reply, q⟩ := m
  simp only at hact hdone hchange ⊢
  generalize hl : q.lifecycle = l at hchange ⊢
  cases hchange with
  | rewind => exact ⟨.rewind hdone, rfl⟩
  | rewindDone => exact ⟨.rewind hdone, rfl⟩
  | seekBack => exact ⟨.seek hdone, rfl⟩
  | clearRepeat => exact ⟨.clearRepeat hdone, rfl⟩
  | pause hplaying => simp [hdone] at hplaying
  | play hidle => simp [hdone] at hidle
  | finish => exact absurd hl hleave
  | land => exact absurd hl hleave
  | complete => exact absurd hl hleave
  | crash hplaying => simp [hdone] at hplaying

theorem Coherent.starts_of_enter (h : m.before.Coherent)
    (hact : m.before.act m.action = some (m.reply, m.after))
    (hrests : m.before.lifecycle ≠ .playing) (henter : m.after.lifecycle = .playing) :
    m.Starts := by
  have hchange := h.changes_act hact (henter ▸ hrests.symm)
  obtain ⟨p, a, reply, q⟩ := m
  simp only at henter hchange ⊢
  rw [henter] at hchange
  cases hchange with
  | play => exact .play

theorem Trace.reopens_starts (h : Trace p ms q) (hp : p.Coherent) (hdone : p.lifecycle = .done)
    (hplaying : q.lifecycle = .playing) :
    ∃ pre r mid s post, ms = pre ++ r :: (mid ++ s :: post) ∧ r.Reopens ∧ s.Starts := by
  -- The first change leaves `done` for `idle`, the second one enters `playing`.
  obtain ⟨pre, r, rest, rfl, hpre, hbefore, hact, hleave, hrest⟩ :=
    h.exists_change (P := fun p => p.lifecycle = .done) hdone (by simp [hplaying])
  have hr := hpre.coherent hp
  obtain ⟨hreopens, hidle⟩ := hr.reopens_of_leave hact hbefore hleave
  obtain ⟨mid, s, post, rfl, hmid, hrests, hact', hstart, -⟩ :=
    hrest.exists_change (P := fun p => p.lifecycle ≠ .playing) (by simp [hidle])
      (by simp [hplaying])
  have hs := hmid.coherent (hr.act hact)
  have hstarts := hs.starts_of_enter hact' hrests (Decidable.not_not.mp hstart)
  exact ⟨pre, r, mid, s, post, rfl, hreopens, hstarts⟩

/-! ## Histories -/

theorem reports_iff {e : Event} : m.reports e = true ↔ m.reply.event? = some e := by
  simp [Moment.reports]

theorem reports_eq_false_iff {e : Event} : m.reports e = false ↔ m.reply.event? ≠ some e := by
  simp [Moment.reports]

theorem Responsive.map_action_history (h : p.Responsive) (actions : List Action) :
    (p.history actions).map Moment.action = actions := by
  obtain ⟨replies, q, hrun⟩ := h.exists_run actions
  exact (history_of_run hrun).1

theorem inOrder_history_new (params : Params) (actions : List Action) :
    InOrder ((new params).history actions) := by
  obtain ⟨q, htrace⟩ := exists_trace_history (new params) actions
  generalize (new params).history actions = ms at htrace
  have hnew := coherent_new params
  constructor
  case ready_once =>
    exact (htrace.countP_reports_le_one (P := fun p => p.announced = true) ready_of_act
      announced_act).1
  case before_ready =>
    rintro pre m post rfl hnone
    obtain ⟨r, hpre, hrest⟩ := trace_append_iff.mp htrace
    obtain ⟨rfl, hact, -⟩ := trace_cons_iff.mp hrest
    obtain ⟨hdone, hfail, hstill⟩ := act_of_fresh hact (hpre.announced_eq hnone)
    exact ⟨reports_eq_false_iff.mpr hdone, reports_eq_false_iff.mpr hfail, hstill⟩
  case fail_once =>
    refine (htrace.countP_reports_le_one (P := fun p => p.lifecycle = .failed) ?_ failed_act).1
    intro p q a reply hact hevent
    obtain ⟨hplaying, hfailed⟩ := lifecycle_of_trackFail hact hevent
    exact ⟨by simp [hplaying], hfailed⟩
  case after_fail =>
    rintro pre m post rfl hfail
    obtain ⟨r, -, hrest⟩ := trace_append_iff.mp htrace
    obtain ⟨-, hact, hpost⟩ := trace_cons_iff.mp hrest
    obtain ⟨-, hfailed⟩ := lifecycle_of_trackFail hact (reports_iff.mp hfail)
    exact ⟨hpost.refused_of_failed hfailed, run_of_failed hfailed⟩
  case between_done =>
    rintro pre m mid m' post rfl hdone hdone'
    obtain ⟨r, hpre, hrest⟩ := trace_append_iff.mp htrace
    obtain ⟨rfl, hact, hrest⟩ := trace_cons_iff.mp hrest
    obtain ⟨s, hmid, hrest⟩ := trace_append_iff.mp hrest
    obtain ⟨rfl, hact', -⟩ := trace_cons_iff.mp hrest
    obtain ⟨-, hended⟩ := lifecycle_of_trackDone hact (reports_iff.mp hdone)
    obtain ⟨hplaying, -⟩ := lifecycle_of_trackDone hact' (reports_iff.mp hdone')
    exact hmid.reopens_starts ((hpre.coherent hnew).act hact) hended hplaying

/-- Whatever is done to a new player, its events come in their order, and unless its track stalls
the history leaves out nothing that was done. -/
theorem history_new_inOrder (params : Params) (actions : List Action) :
    InOrder ((new params).history actions) ∧
      (¬params.Stalls → ((new params).history actions).map Moment.action = actions) :=
  ⟨inOrder_history_new params actions, fun h => (responsive_new h).map_action_history actions⟩

/-- A track that is played to its end, rewound and played to its end again. -/
theorem history_new_inOrder_done_twice :
    ∃ ms, (new { extent := .finite 2 }).history [.command .play, .advance 0, .advance 5,
        .command .rewind, .command .play, .advance 5] = ms ∧ InOrder ms ∧
      ms.map Moment.action = [.command .play, .advance 0, .advance 5, .command .rewind,
        .command .play, .advance 5] ∧
      ms.map Moment.reply = [.acted true, .reported ⟨.trackReady, 0⟩, .reported ⟨.trackDone, 2⟩,
        .acted true, .acted true, .reported ⟨.trackDone, 2⟩] := by
  have hrun : (new { extent := .finite 2 }).run [.command .play, .advance 0, .advance 5,
      .command .rewind, .command .play, .advance 5] =
      some ([.acted true, .reported ⟨.trackReady, 0⟩, .reported ⟨.trackDone, 2⟩, .acted true,
          .acted true, .reported ⟨.trackDone, 2⟩],
        ⟨{ extent := .finite 2 }, 0, 2, 1, .done, true⟩) := by cbv
  obtain ⟨horder, hactions⟩ := history_new_inOrder { extent := .finite 2 } [.command .play,
    .advance 0, .advance 5, .command .rewind, .command .play, .advance 5]
  have hstalls : ¬Params.Stalls { extent := .finite 2 } := fun h =>
    absurd h.repeats_eq (by decide)
  exact ⟨_, rfl, horder, hactions hstalls, (history_of_run hrun).2.1⟩

end Player

end Playhead

import Playhead.Proofs.Scenario.Steps
import Playhead.Proofs.Session.Log

/-!
# Sessions follow runners

Whatever reaches the player of a session reaches it as a step. The steps since the session was made
or last reset, with the scenario of that moment, are its course (`Course`); a runner that is made
for this scenario and follows these steps is where the session is (`Session.run_new_refines`).
-/

namespace Playhead

/-- The steps that have been applied since a session was made or last reset, and the scenario of
that moment. -/
structure Course where
  basis : Scenario
  steps : List Step := []
  deriving DecidableEq, Repr

/-- Something that reaches a session: a key press, a call, or a change of its scenario, which the
player does not notice before the next reset or script. -/
inductive Input where
  | key (settings : Settings) (key : Key)
  | act (act : Act)
  | rewrite (scenario : Scenario)
  deriving DecidableEq, Repr

namespace Session

/-- The steps of a script that are applied: those up to the first that leaves a notice. -/
def scripted (s : Session) : List Step → List Step
  | [] => []
  | step :: rest =>
    step :: match s.apply step with
      | .error _ => []
      | .ok (t, _) => if t.notice.isSome then [] else t.scripted rest

/-- The steps that an act applies. -/
def stepsOf (s : Session) : Act → List Step
  | .tick budget =>
    if s.clockRunning && !s.runner.player.isEnded then [.advance budget 1] else []
  | .step budget => [.advance budget 1]
  | .seekBy delta => [.command (.seek (s.offsetBy delta))]
  | .togglePlay => [.command (if s.runner.player.isPlaying then .pause else .play)]
  | .apply step => [step]
  | .runScript => scripted { s with notice := none } s.scenario.steps
  | .toggleClock => []
  | .reset => []

def receive (s : Session) : Input → Except Fault Session
  | .key settings key => (s.press settings key).map Prod.fst
  | .act a => (s.perform a).map Prod.fst
  | .rewrite scenario => .ok { s with scenario }

end Session

namespace Course

def extend (c : Course) (steps : List Step) : Course := { c with steps := c.steps ++ steps }

theorem extend_nil (c : Course) : c.extend [] = c := by
  rw [extend, List.append_nil]

theorem extend_extend (c : Course) (steps more : List Step) :
    (c.extend steps).extend more = c.extend (steps ++ more) := by
  rw [extend, extend, extend, List.append_assoc]

/-- The course of a session after an act: a reset begins another one, unless it fails. -/
def perform (c : Course) (s : Session) : Act → Course
  | .reset =>
    match Runner.ofScenario s.scenario with
    | .ok _ => { basis := s.scenario }
    | .error _ => c
  | a => c.extend (s.stepsOf a)

def receive (c : Course) (s : Session) : Input → Course
  | .key settings key =>
    match key.request settings with
    | .act a => c.perform s a
    | _ => c
  | .act a => c.perform s a
  | .rewrite _ => c

end Course

namespace Session

/-- Receive inputs in order, and keep the course. -/
def run (s : Session) (c : Course) : List Input → Except Fault (Session × Course)
  | [] => .ok (s, c)
  | input :: rest =>
    match s.receive input with
    | .error fault => .error fault
    | .ok t => t.run (c.receive s input) rest

/-- A session is where a runner comes to that follows its course, and its log has what fits of the
entries that this leaves. -/
structure Follows (s : Session) (c : Course) : Prop where
  capacity_pos : 0 < s.capacity
  applied_eq : s.applied = c.steps.length
  exists_follow : ∃ fresh entries, Runner.ofScenario c.basis = .ok fresh ∧
    fresh.follow 0 c.steps = .ok (s.runner, entries) ∧
      s.log = (entries.filter (·.isLogged s.logsRoutine)).rtake s.capacity

variable {s t : Session} {c : Course} {effect : Bool}

theorem Follows.logFits (h : s.Follows c) : s.LogFits := by
  obtain ⟨_, _, _, _, hlog⟩ := h.exists_follow
  exact ⟨h.capacity_pos, hlog ▸ length_rtake_le _ _⟩

/-- A step that is applied to the session is one more step of its course. -/
theorem Follows.apply (h : s.Follows c) {step : Step} (happly : s.apply step = .ok (t, effect)) :
    t.Follows (c.extend [step]) := by
  rw [apply_eq h.logFits] at happly
  obtain ⟨⟨r, result⟩, hstep, heq⟩ := map_eq_ok_iff.mp happly
  cases heq
  obtain ⟨fresh, entries, hfresh, hfollow, hlog⟩ := h.exists_follow
  rw [h.applied_eq, ← Nat.zero_add c.steps.length] at hstep
  have hlonger := Runner.follow_concat hfollow hstep
  have hcount : s.applied + 1 = (c.extend [step]).steps.length := by
    rw [h.applied_eq, Course.extend, List.length_append]
    rfl
  cases result with
  | ok new =>
    refine ⟨h.capacity_pos, hcount, fresh, entries ++ new, hfresh, hlonger, ?_⟩
    change s.logWith new = _
    rw [logWith, hlog, rtake_rtake_append, ← List.filter_append]
    rfl
  | error unmet =>
    refine ⟨h.capacity_pos, hcount, fresh, entries, hfresh, ?_, hlog⟩
    rw [← List.append_nil entries]
    exact hlonger

theorem Follows.applyAll (h : s.Follows c) {steps : List Step}
    (happly : s.applyAll steps = .ok t) : t.Follows (c.extend (s.scripted steps)) := by
  induction steps generalizing s c with
  | nil =>
    cases happly
    rw [scripted, Course.extend_nil]
    exact h
  | cons step rest ih =>
    rw [Session.applyAll] at happly
    rw [scripted]
    cases hstep : s.apply step with
    | error fault =>
      rw [hstep] at happly
      cases happly
    | ok answer =>
      obtain ⟨u, effect⟩ := answer
      rw [hstep] at happly
      have hu := h.apply hstep
      dsimp only at happly ⊢
      by_cases hnotice : u.notice.isSome
      · rw [if_pos hnotice] at happly ⊢
        cases happly
        exact hu
      · rw [if_neg hnotice] at happly ⊢
        have ht := ih hu happly
        rw [Course.extend_extend] at ht
        exact ht

/-- Nothing that the course is about changes with the notice or the clock. -/
theorem Follows.frame (h : s.Follows c) (clockRunning : Bool) (notice : Option Notice) :
    { s with clockRunning, notice }.Follows c :=
  ⟨h.capacity_pos, h.applied_eq, h.exists_follow⟩

theorem follows_of_fresh {scenario : Scenario} (hcapacity : 0 < s.capacity)
    (hfresh : Runner.ofScenario scenario = .ok s.runner) (happlied : s.applied = 0)
    (hlog : s.log = []) : s.Follows { basis := scenario } := by
  refine ⟨hcapacity, happlied, s.runner, [], hfresh, rfl, ?_⟩
  rw [hlog, List.filter_nil, List.rtake_nil]

theorem Follows.tick (h : s.Follows c) {budget : Nat} (htick : s.tick budget = .ok t) :
    t.Follows (c.extend (s.stepsOf (.tick budget))) := by
  unfold Session.tick at htick
  rw [stepsOf]
  cases hclock : s.clockRunning with
  | false =>
    rw [hclock] at htick
    cases htick
    rw [Bool.false_and, if_neg Bool.false_ne_true, Course.extend_nil]
    exact h
  | true =>
    cases hended : s.runner.player.isEnded with
    | true =>
      simp only [hclock, hended, Bool.not_true, Bool.false_eq_true, if_false, if_true] at htick
      cases htick
      rw [Bool.not_true, Bool.and_false, if_neg Bool.false_ne_true, Course.extend_nil]
      exact h.frame false s.notice
    | false =>
      simp only [hclock, hended, Bool.not_true, Bool.false_eq_true, if_false] at htick
      obtain ⟨⟨_, effect⟩, hstep, heq⟩ := map_eq_ok_iff.mp htick
      cases heq
      exact h.apply hstep

theorem Follows.runScript (h : s.Follows c) (hscript : s.runScript = .ok t) :
    t.Follows (c.extend (s.stepsOf .runScript)) := by
  obtain ⟨u, hall, rfl⟩ := map_eq_ok_iff.mp hscript
  have hu := (h.frame s.clockRunning none).applyAll hall
  split
  · exact hu
  · exact hu.frame _ _

theorem Follows.reset (h : s.Follows c) : s.reset.Follows (c.perform s .reset) := by
  unfold Session.reset Course.perform
  dsimp only
  cases hfresh : Runner.ofScenario s.scenario with
  | ok runner => exact follows_of_fresh h.capacity_pos hfresh rfl rfl
  | error flaw => exact h.frame _ _

/-- Every act keeps to its course. -/
theorem Follows.perform (h : s.Follows c) {a : Act} (hperform : s.perform a = .ok (t, effect)) :
    t.Follows (c.perform s a) := by
  cases a with
  | tick budget =>
    obtain ⟨u, htick, heq⟩ := map_eq_ok_iff.mp hperform
    cases heq
    exact h.tick htick
  | step budget => exact h.apply hperform
  | seekBy delta => exact h.apply hperform
  | togglePlay => exact h.apply hperform
  | toggleClock =>
    cases hperform
    change Follows _ (c.extend [])
    rw [Course.extend_nil]
    exact h.frame _ _
  | apply step => exact h.apply hperform
  | runScript =>
    obtain ⟨u, hscript, heq⟩ := map_eq_ok_iff.mp hperform
    cases heq
    exact h.runScript hscript
  | reset =>
    cases hperform
    exact h.reset

theorem Follows.receive (h : s.Follows c) {input : Input} (hreceive : s.receive input = .ok t) :
    t.Follows (c.receive s input) := by
  cases input with
  | key settings key =>
    obtain ⟨⟨u, quits⟩, hpress, rfl⟩ := map_eq_ok_iff.mp hreceive
    unfold press at hpress
    unfold Course.receive
    dsimp only
    cases hrequest : key.request settings with
    | quit =>
      rw [hrequest] at hpress
      cases hpress
      exact h
    | act a =>
      rw [hrequest] at hpress
      obtain ⟨⟨u, effect⟩, hperform, heq⟩ := map_eq_ok_iff.mp hpress
      cases heq
      exact h.perform hperform
    | nothing =>
      rw [hrequest] at hpress
      cases hpress
      exact h
  | act a =>
    obtain ⟨⟨u, effect⟩, hperform, rfl⟩ := map_eq_ok_iff.mp hreceive
    exact h.perform hperform
  | rewrite scenario =>
    cases hreceive
    exact ⟨h.capacity_pos, h.applied_eq, h.exists_follow⟩

theorem Follows.run (h : s.Follows c) {inputs : List Input} {d : Course}
    (hrun : s.run c inputs = .ok (t, d)) : t.Follows d := by
  induction inputs generalizing s c with
  | nil =>
    cases hrun
    exact h
  | cons input rest ih =>
    rw [Session.run] at hrun
    split at hrun
    · cases hrun
    · next u hreceive => exact ih (h.receive hreceive) hrun

theorem follows_new {scenario : Scenario} {ui : UiSettings}
    (hnew : Session.new scenario ui = .ok s) : s.Follows { basis := scenario } := by
  have hfits := logFits_new hnew
  obtain ⟨fresh, hfresh, rfl⟩ := eq_of_new hnew
  exact follows_of_fresh hfits.capacity_pos hfresh rfl rfl

/-- However a session is driven, a runner that is made for the scenario of its course and follows
the steps of this course from index zero on, behind every expectation that fails, has the player,
the clock and the last event of the session; and the next step of the session has the index that
comes after all of these. -/
theorem run_new_refines {scenario : Scenario} {content : Content}
    (hcontent : scenario.content.resolve = .ok content) (ui : UiSettings) :
    ∃ s, Session.new scenario ui = .ok s ∧
      ∀ inputs t c, s.run { basis := scenario } inputs = .ok (t, c) →
        ∃ fresh entries, Runner.ofScenario c.basis = .ok fresh ∧
          fresh.follow 0 c.steps = .ok (t.runner, entries) ∧ t.applied = c.steps.length := by
  have hnew := new_eq (Scenario.ofScenario_of_resolve hcontent) ui
  refine ⟨_, hnew, ?_⟩
  intro inputs t c hrun
  have h : t.Follows c := (follows_new hnew).run hrun
  obtain ⟨fresh, entries, hfresh, hfollow, -⟩ := h.exists_follow
  exact ⟨fresh, entries, hfresh, hfollow, h.applied_eq⟩

/-- A script that is given up at its third step. -/
def hasty (length : Int) : Scenario :=
  { content := { length },
    steps := [.command .play, .advance 5 2, .expect { position := some 9 }, .command .pause] }

/-- A session that is given other content, reset and run through its script; by its next reset the
content is flawed, so that it only goes on. -/
theorem run_new_refines_over_resets :
    let inputs : List Input := [.act .runScript, .rewrite (hasty 60),
      .key {} { code := .char 'R' }, .act .runScript, .rewrite (hasty (-2)), .act .reset,
      .key {} { code := .char 't' }, .act (.tick 7)]
    let steps : List Step :=
      [.command .play, .advance 5 2, .expect { position := some 9 }, .advance 7 1]
    ∃ s t fresh entries, Session.new (hasty 40) {} = .ok s ∧
      s.run { basis := hasty 40 } inputs = .ok (t, ⟨hasty 60, steps⟩) ∧
      Runner.ofScenario (hasty 60) = .ok fresh ∧
      fresh.follow 0 steps = .ok (t.runner, entries) ∧ t.applied = 4 := by
  intro inputs steps
  have hcontent : (hasty 40).content.resolve = .ok { length := .finite 40 } := by rfl
  obtain ⟨s, hnew, hrefines⟩ := run_new_refines hcontent {}
  have hcourse : (s.run { basis := hasty 40 } inputs).map Prod.snd = .ok ⟨hasty 60, steps⟩ := by
    rw [new_eq (Scenario.ofScenario_of_resolve hcontent)] at hnew
    cases hnew
    cbv
  obtain ⟨⟨t, c⟩, hrun, rfl⟩ := map_eq_ok_iff.mp hcourse
  obtain ⟨fresh, entries, hfresh, hfollow, happlied⟩ := hrefines _ _ _ hrun
  exact ⟨s, t, fresh, entries, hnew, hrun, hfresh, hfollow, happlied⟩

end Session

end Playhead

import Playhead.Proofs.Session.Log
import Playhead.Proofs.Scenario.Replay

/-!
# Scripts and replays

A replay drops what came before an expectation that fails; a session has logged it and keeps it.
Both go the same way (`Runner.attempt`): the script of a new session leaves the runner, the clock
and the entries of the replay, and the message of its failure (`Session.runScript_new_agrees`).
-/

namespace Playhead

namespace Session

variable {s : Session}

/-- The session behind the steps of an attempt. -/
def attempted (s : Session) (steps : List Step) (a : Attempt) : Session :=
  { s with
    runner := a.runner
    applied := a.failure.elim (s.applied + steps.length) (·.step + 1)
    log := s.logWith a.entries
    notice := a.failure.map .unmet }

/-- A step and the attempt behind it are one attempt. -/
theorem attempted_noting (s : Session) (r : Runner) (entries : List Entry) (step : Step)
    (rest : List Step) (a : Attempt) :
    (s.noting r (.ok entries)).attempted rest a =
      s.attempted (step :: rest) { a with entries := entries ++ a.entries } := by
  have hcount : s.applied + 1 + rest.length = s.applied + (step :: rest).length := by
    rw [List.length_cons]
    omega
  simp only [attempted, ← logWith_logWith, ← hcount]
  rfl

/-- A session takes the steps of a script as its runner does. -/
theorem applyAll_eq (h : s.LogFits) (hquiet : s.notice = none) (steps : List Step) :
    s.applyAll steps = (s.runner.attempt s.applied steps).map (s.attempted steps) := by
  induction steps generalizing s with
  | nil =>
    rw [applyAll, Runner.attempt, map_ok, attempted, logWith_nil h]
    simp [← hquiet]
  | cons step rest ih =>
    rw [applyAll, apply_eq h, Runner.attempt]
    cases hstep : s.runner.apply s.applied step with
    | error fault => rfl
    | ok answer =>
      obtain ⟨r, result⟩ := answer
      cases result with
      | error unmet =>
        have hindex := (Runner.eq_of_apply_error hstep).2
        simp [noting, attempted, hindex, logWith_nil h]
      | ok entries =>
        have hquiet' : (s.noting r (.ok entries)).notice = none := hquiet
        simp only [map_ok]
        rw [hquiet', Option.isSome_none, if_neg Bool.false_ne_true,
          ih (h.noting r (.ok entries)) hquiet', map_map]
        exact map_congr fun a _ => attempted_noting s r entries step rest a

/-- A script leaves the session behind its attempt, with the failure of the attempt or its end as
the notice. -/
theorem runScript_eq (h : s.LogFits) :
    s.runScript = (s.runner.attempt s.applied s.scenario.steps).map fun a =>
      { s.attempted s.scenario.steps a with
        notice := some (a.failure.elim (.scriptFinished s.scenario.steps.length) .unmet) } := by
  have hfits : { s with notice := none }.LogFits := ⟨h.capacity_pos, h.length_le⟩
  rw [runScript, applyAll_eq hfits rfl, map_map]
  refine map_congr fun a _ => ?_
  obtain ⟨r, entries, failure⟩ := a
  cases failure <;> rfl

/-- The script of a new session and the replay of its scenario agree. Neither answers without the
other. If the replay is complete, the session has the runner, the clock and what fits of the entries
behind the last step, and says that the script is finished. If an expectation fails, the session
says so in the same words and has the runner and the entries of the steps before. -/
theorem runScript_new_agrees {scenario : Scenario} (hvalid : scenario.validate = .ok ())
    (ui : UiSettings) :
    ∃ fresh s, Runner.ofScenario scenario = .ok fresh ∧ Session.new scenario ui = .ok s ∧
      (∀ fault, scenario.replay = .error fault ↔ s.runScript = .error fault) ∧
      (∀ t, scenario.replay = .ok (.ok t) → ∃ u, s.runScript = .ok u ∧
        fresh.applyAll 0 scenario.steps = .ok (u.runner, .ok t.entries) ∧
        u.runner.clock = t.clock ∧
        u.notice.map Notice.text = some s!"script finished ({scenario.steps.length} steps)" ∧
        u.log = (t.entries.filter (·.isLogged ui.logTimeUpdates)).rtake (max 1 ui.eventLogLen)) ∧
      ∀ e, scenario.replay = .ok (.error e) → ∃ unmet u entries, e = .unmet unmet ∧
        s.runScript = .ok u ∧ unmet.step < scenario.steps.length ∧
        fresh.applyAll 0 (scenario.steps.take unmet.step) = .ok (u.runner, .ok entries) ∧
        u.notice.map Notice.text = some unmet.message ∧
        u.log = (entries.filter (·.isLogged ui.logTimeUpdates)).rtake (max 1 ui.eventLogLen) := by
  obtain ⟨content, hcontent⟩ := Scenario.exists_resolve_of_validate hvalid
  obtain ⟨fresh, hfresh, hzero⟩ : ∃ fresh, Runner.ofScenario scenario = .ok fresh ∧
      fresh.clock = 0 := ⟨_, Scenario.ofScenario_of_resolve hcontent, rfl⟩
  have hnew := new_eq hfresh ui
  refine ⟨fresh, _, hfresh, hnew, ?_⟩
  rw [runScript_eq (logFits_new hnew)]
  refine ⟨?_, ?_, ?_⟩
  · intro fault
    rw [Scenario.replay_eq_attempt hfresh, map_eq_error_iff, map_eq_error_iff]
  · intro t ht
    obtain ⟨r, hattempt⟩ := Scenario.attempt_of_replay hfresh ht
    have hall := Runner.applyAll_of_attempt hattempt
    have hclock := Runner.clock_of_applyAll hall
    rw [hzero] at hclock
    exact ⟨_, by rw [hattempt]; rfl, hall, hclock, rfl, logWith_new hnew t.entries⟩
  · intro e he
    obtain ⟨r, entries, unmet, rfl, hattempt⟩ := Scenario.attempt_of_replay_error hfresh he
    obtain ⟨k, hk, hstep, htake⟩ := Runner.take_of_attempt hattempt rfl
    rw [Nat.zero_add] at hstep
    subst hstep
    exact ⟨unmet, _, entries, rfl, by rw [hattempt]; rfl, hk, htake, rfl,
      logWith_new hnew entries⟩

/-- Four chunks of five milliseconds, checked behind the third and the fourth. -/
def paced : Scenario :=
  { content := { length := 40 },
    steps := [.command .play, .advance 5 4, .expect { position := some 15 }, .run 5 5,
      .expect { position := some 15 }] }

/-- The log keeps the last two of the seven entries before the check that fails. -/
theorem runScript_new_agrees_up_to_failure :
    ∃ fresh s u entries, Runner.ofScenario paced = .ok fresh ∧
      Session.new paced { eventLogLen := 2, logTimeUpdates := true } = .ok s ∧
      s.runScript = .ok u ∧
      fresh.applyAll 0 (paced.steps.take 4) = .ok (u.runner, .ok entries) ∧
      u.notice.map Notice.text = some "step 4: expectation failed: position is 20, expected 15" ∧
      u.log = (entries.filter (·.isLogged true)).rtake 2 := by
  have hvalid : paced.validate = .ok () := by rfl
  have hreplay : paced.replay = .ok (.error (.unmet ⟨4, [.position 20 15]⟩)) := by cbv
  obtain ⟨fresh, s, hfresh, hnew, -, -, herror⟩ :=
    runScript_new_agrees hvalid { eventLogLen := 2, logTimeUpdates := true }
  obtain ⟨unmet, u, entries, heq, hscript, -, htake, hnotice, hlog⟩ := herror _ hreplay
  cases heq
  refine ⟨fresh, s, u, entries, hfresh, hnew, hscript, htake, ?_, hlog⟩
  rw [hnotice]
  rfl

end Session

end Playhead

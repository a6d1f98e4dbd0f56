import Playhead.Proofs.Scenario.Steps

/-!
# What a replay keeps

The clock of a runner is the clock of its last entry (`Runner.clock_of_applyAll`). A replay forgets
the entries before an expectation that fails; `Runner.attempt` keeps them, and they are those of the
steps before it (`Runner.take_of_attempt`).
-/

namespace Playhead

namespace Runner

theorem clock_of_applyAll {r r' : Runner} {index : Nat} {steps : List Step} {entries : List Entry}
    (happly : r.applyAll index steps = .ok (r', .ok entries)) :
    r'.clock = clockAfter r.clock entries :=
  (accounts_of_follow (follow_of_applyAll happly)).clock_eq

end Runner

/-! ## Attempts -/

/-- What steps come to that are given up when an expectation fails: the entries up to there, and
this failure. -/
structure Attempt where
  runner : Runner
  entries : List Entry
  failure : Option Unmet

namespace Runner

/-- Apply steps numbered from `index` until an expectation fails, and keep the entries. -/
def attempt (r : Runner) (index : Nat) : List Step → Except Fault Attempt
  | [] => .ok ⟨r, [], none⟩
  | s :: rest =>
    match r.apply index s with
    | .error fault => .error fault
    | .ok (r, .error unmet) => .ok ⟨r, [], some unmet⟩
    | .ok (r, .ok entries) =>
      (r.attempt (index + 1) rest).map fun a => { a with entries := entries ++ a.entries }

theorem applyAll_eq_attempt (r : Runner) (index : Nat) (steps : List Step) :
    r.applyAll index steps =
      (r.attempt index steps).map fun a => (a.runner, a.failure.elim (.ok a.entries) .error) := by
  induction steps generalizing r index with
  | nil => rfl
  | cons s rest ih =>
    rw [applyAll, attempt]
    cases r.apply index s with
    | error fault => rfl
    | ok answer =>
      obtain ⟨q, result⟩ := answer
      cases result with
      | error unmet => rfl
      | ok entries =>
        dsimp only
        rw [ih]
        cases q.attempt (index + 1) rest with
        | error fault => rfl
        | ok a =>
          obtain ⟨q', more, failure⟩ := a
          cases failure <;> rfl

theorem applyAll_of_attempt {r r' : Runner} {index : Nat} {steps : List Step}
    {entries : List Entry} (hattempt : r.attempt index steps = .ok ⟨r', entries, none⟩) :
    r.applyAll index steps = .ok (r', .ok entries) := by
  rw [applyAll_eq_attempt, hattempt]
  rfl

/-- An attempt is given up at an expectation that does not hold behind the steps before it. -/
theorem expect_of_attempt {r : Runner} {index : Nat} {steps : List Step} {a : Attempt}
    {unmet : Unmet} (hattempt : r.attempt index steps = .ok a)
    (hfailure : a.failure = some unmet) :
    ∃ k e, steps[k]? = some (.expect e) ∧ a.runner.problems e ≠ [] ∧
      unmet = ⟨index + k, a.runner.problems e⟩ ∧
      r.applyAll index (steps.take k) = .ok (a.runner, .ok a.entries) := by
  induction steps generalizing r index a with
  | nil =>
    cases hattempt
    cases hfailure
  | cons s rest ih =>
    rw [attempt] at hattempt
    split at hattempt
    · cases hattempt
    · next q u hfirst =>
      cases hattempt
      cases hfailure
      cases applies_of_apply hfirst with
      | fail hfails => exact ⟨0, _, rfl, hfails, rfl, rfl⟩
    · next q first hfirst =>
      obtain ⟨b, hrest, rfl⟩ := map_eq_ok_iff.mp hattempt
      obtain ⟨k, e, hexpect, hfails, rfl, htake⟩ := ih hrest hfailure
      refine ⟨k + 1, e, hexpect, hfails, by rw [Nat.add_right_comm, Nat.add_assoc], ?_⟩
      simp only [List.take_succ_cons, applyAll, hfirst, htake]

/-- An attempt that is given up has come as far as the step that fails. -/
theorem take_of_attempt {r : Runner} {index : Nat} {steps : List Step} {a : Attempt} {unmet : Unmet}
    (hattempt : r.attempt index steps = .ok a) (hfailure : a.failure = some unmet) :
    ∃ k < steps.length, unmet.step = index + k ∧
      r.applyAll index (steps.take k) = .ok (a.runner, .ok a.entries) := by
  obtain ⟨k, e, hexpect, -, rfl, htake⟩ := expect_of_attempt hattempt hfailure
  exact ⟨k, (List.getElem?_eq_some_iff.mp hexpect).1, rfl, htake⟩

end Runner

namespace Scenario

variable {s : Scenario} {r : Runner}

/-- A replay is an attempt without the entries before a failure. -/
theorem replay_eq_attempt (hfresh : Runner.ofScenario s = .ok r) :
    s.replay = (r.attempt 0 s.steps).map fun a =>
      a.failure.elim (.ok ⟨a.entries⟩) fun unmet => .error (.unmet unmet) := by
  unfold replay
  rw [hfresh]
  dsimp only
  rw [r.applyAll_eq_attempt]
  cases r.attempt 0 s.steps with
  | error fault => rfl
  | ok a =>
    obtain ⟨q, entries, failure⟩ := a
    cases failure <;> rfl

theorem attempt_of_replay {t : Transcript} (hfresh : Runner.ofScenario s = .ok r)
    (hreplay : s.replay = .ok (.ok t)) :
    ∃ q, r.attempt 0 s.steps = .ok ⟨q, t.entries, none⟩ := by
  rw [replay_eq_attempt hfresh] at hreplay
  obtain ⟨⟨q, entries, failure⟩, hattempt, heq⟩ := map_eq_ok_iff.mp hreplay
  cases failure with
  | none =>
    cases heq
    exact ⟨q, hattempt⟩
  | some unmet => cases heq

theorem attempt_of_replay_error {e : RunError} (hfresh : Runner.ofScenario s = .ok r)
    (hreplay : s.replay = .ok (.error e)) :
    ∃ q entries unmet, e = .unmet unmet ∧
      r.attempt 0 s.steps = .ok ⟨q, entries, some unmet⟩ := by
  rw [replay_eq_attempt hfresh] at hreplay
  obtain ⟨⟨q, entries, failure⟩, hattempt, heq⟩ := map_eq_ok_iff.mp hreplay
  cases failure with
  | none => cases heq
  | some unmet =>
    cases heq
    exact ⟨q, entries, unmet, rfl, hattempt⟩

end Scenario

end Playhead

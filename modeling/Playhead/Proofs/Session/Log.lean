import Mathlib.Data.List.DropRight
import Playhead.Proofs.Scenario.Answers
import Playhead.Session.Acts

/-!
# What a step does to a session

The log of a session keeps the last entries that fit of all that are to be logged. So the entries of
a step can be added all at once (`Session.foldl_record`), and a step is what the runner makes of it,
noted in the session (`Session.apply_eq`).
-/

namespace Playhead

theorem rtake_append_singleton {α : Type} {n : Nat} {l : List α} (x : α) (hn : 0 < n)
    (hl : l.length ≤ n) : (l ++ [x]).rtake n = (if l.length = n then l.tail else l) ++ [x] := by
  obtain ⟨m, rfl⟩ := Nat.exists_eq_add_one_of_ne_zero (Nat.ne_of_gt hn)
  rw [List.rtake_concat_succ, List.rtake]
  by_cases hfull : l.length = m + 1
  · rw [if_pos hfull, hfull, Nat.add_sub_cancel_left, List.drop_one]
  · rw [if_neg hfull, Nat.sub_eq_zero_of_le (by omega), List.drop_zero]

theorem length_rtake_le {α : Type} (n : Nat) (l : List α) : (l.rtake n).length ≤ n := by
  rw [List.rtake, List.length_drop]
  omega

theorem rtake_eq_self {α : Type} {n : Nat} {l : List α} (hl : l.length ≤ n) : l.rtake n = l := by
  rw [List.rtake, Nat.sub_eq_zero_of_le hl, List.drop_zero]

/-- What has been dropped once does not come back, and is not missed. -/
theorem rtake_rtake_append {α : Type} (n : Nat) (l m : List α) :
    (l.rtake n ++ m).rtake n = (l ++ m).rtake n := by
  simp only [List.rtake, List.drop_append, List.length_append, List.length_drop, List.drop_drop]
  congr 2 <;> omega

/-- Whether an entry is to be logged. -/
def Entry.isLogged (logsRoutine : Bool) (e : Entry) : Bool := logsRoutine || !e.isRoutine

namespace Session

variable {s : Session}

/-- The log after more entries. -/
def logWith (s : Session) (entries : List Entry) : List Entry :=
  (s.log ++ entries.filter (·.isLogged s.logsRoutine)).rtake s.capacity

/-- The log has room for an entry, and is not overfull. -/
structure LogFits (s : Session) : Prop where
  capacity_pos : 0 < s.capacity
  length_le : s.log.length ≤ s.capacity

theorem logWith_nil (h : s.LogFits) : s.logWith [] = s.log := by
  rw [logWith, List.filter_nil, List.append_nil]
  exact rtake_eq_self h.length_le

theorem logWith_logWith (s : Session) (entries more : List Entry) :
    { s with log := s.logWith entries }.logWith more = s.logWith (entries ++ more) := by
  simp only [logWith, rtake_rtake_append, List.filter_append, List.append_assoc]

theorem LogFits.logWith (h : s.LogFits) (entries : List Entry) :
    { s with log := s.logWith entries }.LogFits :=
  ⟨h.capacity_pos, length_rtake_le _ _⟩

theorem record_eq (h : s.LogFits) (e : Entry) : s.record e = { s with log := s.logWith [e] } := by
  unfold record
  have hskips : (e.isRoutine && !s.logsRoutine) = !e.isLogged s.logsRoutine := by
    rw [Entry.isLogged, Bool.not_or, Bool.not_not, Bool.and_comm]
  rw [hskips, logWith]
  cases hlogged : e.isLogged s.logsRoutine with
  | true =>
    rw [List.filter_cons_of_pos hlogged, List.filter_nil,
      rtake_append_singleton e h.capacity_pos h.length_le]
    rfl
  | false =>
    rw [List.filter_cons_of_neg (by simp [hlogged]), List.filter_nil, List.append_nil,
      rtake_eq_self h.length_le]
    rfl

theorem foldl_record (h : s.LogFits) (entries : List Entry) :
    entries.foldl record s = { s with log := s.logWith entries } := by
  induction entries generalizing s with
  | nil => rw [List.foldl_nil, logWith_nil h]
  | cons e rest ih =>
    rw [List.foldl_cons, record_eq h, ih (h.logWith [e]), logWith_logWith]
    rfl

/-- The session after a step that the runner has taken. -/
def noting (s : Session) (runner : Runner) : Except Unmet (List Entry) → Session
  | .ok entries => { s with runner, applied := s.applied + 1, log := s.logWith entries }
  | .error unmet => { s with runner, applied := s.applied + 1, notice := some (.unmet unmet) }

/-- Whether a step came to something. -/
def effective : Except Unmet (List Entry) → Bool
  | .ok entries => entries.any (·.outcome.isEffective)
  | .error _ => false

theorem apply_eq (h : s.LogFits) (step : Step) :
    s.apply step = (s.runner.apply s.applied step).map fun (runner, result) =>
      (s.noting runner result, effective result) := by
  unfold apply
  cases s.runner.apply s.applied step with
  | error fault => rfl
  | ok answer =>
    obtain ⟨runner, result⟩ := answer
    cases result with
    | error unmet => rfl
    | ok entries =>
      have hfits : { s with runner, applied := s.applied + 1 }.LogFits := ⟨h.1, h.2⟩
      simp only [foldl_record hfits, map_ok]
      rfl

theorem LogFits.noting (h : s.LogFits) (runner : Runner) (result : Except Unmet (List Entry)) :
    (s.noting runner result).LogFits := by
  cases result with
  | ok entries => exact ⟨h.capacity_pos, length_rtake_le _ _⟩
  | error unmet => exact ⟨h.capacity_pos, h.length_le⟩

/-! ## New sessions -/

section

variable {scenario : Scenario} {ui : UiSettings}

theorem new_eq {fresh : Runner} (hfresh : Runner.ofScenario scenario = .ok fresh)
    (ui : UiSettings) :
    Session.new scenario ui = .ok
      { scenario
        runner := fresh
        capacity := max ui.eventLogLen 1
        logsRoutine := ui.logTimeUpdates } := by
  unfold Session.new
  rw [hfresh]
  rfl

theorem eq_of_new (hnew : Session.new scenario ui = .ok s) :
    ∃ fresh, Runner.ofScenario scenario = .ok fresh ∧
      s =
        { scenario
          runner := fresh
          capacity := max ui.eventLogLen 1
          logsRoutine := ui.logTimeUpdates } := by
  cases hfresh : Runner.ofScenario scenario with
  | error flaw =>
    unfold Session.new at hnew
    rw [hfresh] at hnew
    cases hnew
  | ok fresh =>
    rw [new_eq hfresh] at hnew
    cases hnew
    exact ⟨fresh, rfl, rfl⟩

theorem logFits_new (hnew : Session.new scenario ui = .ok s) : s.LogFits := by
  obtain ⟨fresh, -, rfl⟩ := eq_of_new hnew
  exact ⟨Nat.le_max_right _ _, Nat.zero_le _⟩

theorem logWith_new (hnew : Session.new scenario ui = .ok s) (entries : List Entry) :
    s.logWith entries =
      (entries.filter (·.isLogged ui.logTimeUpdates)).rtake (max 1 ui.eventLogLen) := by
  obtain ⟨fresh, -, rfl⟩ := eq_of_new hnew
  rw [logWith, List.nil_append, Nat.max_comm]

end

end Session

end Playhead

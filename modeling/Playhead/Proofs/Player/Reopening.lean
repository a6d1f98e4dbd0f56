import Playhead.Proofs.Player.History
import Playhead.Proofs.Player.Seeking

/-!
# Finished tracks that can be brought back

A finished track with a completed pass is brought back by clearing its repeats, and one whose window
has a second position by seeking there. A track that has neither refuses everything from then on
(`Coherent.act_of_spent`). So the two kinds are told apart by the counter and the window alone
(`done_canReopen_or_inert`), whatever way led to the end.
-/

namespace Playhead

/-- The commands that can bring a finished track back; the offset of a seek is a signed word. -/
def Command.mayReopen : Command → Bool
  | .rewind | .clearRepeat => true
  | .seek offset => fitsSigned offset
  | .play | .pause | .finish => false

namespace Player

variable {p q : Player}

/-- Some command makes the track idle. -/
def CanReopen (p : Player) : Prop :=
  ∃ c : Command, c.mayReopen = true ∧ (p.perform c).2 = true ∧ (p.perform c).1.lifecycle = .idle

/-- Whatever is done, nothing has an effect and nothing changes. -/
def Inert (p : Player) : Prop :=
  ∀ actions, p.run actions = some (actions.map Action.refusal, p)

theorem Inert.not_canReopen (h : p.Inert) : ¬p.CanReopen := by
  rintro ⟨c, -, heffect, -⟩
  obtain ⟨reply, r, more, hact, -, hreplies⟩ := run_cons_eq_some_iff.mp (h [.command c])
  obtain ⟨rfl, -⟩ := act_command_eq_some_iff.mp hact
  simp [Action.refusal, heffect] at hreplies

/-! ## Tracks that come back -/

theorem canReopen_of_plays (hdone : p.lifecycle = .done) (hplays : 1 ≤ p.plays) :
    p.CanReopen := by
  have hclear : p.clearRepeat = ({ p with plays := 0, lifecycle := .idle }, true) := by
    rw [clearRepeat, if_neg (by simp [hdone]), if_pos (by simp [hdone, hplays])]
  refine ⟨.clearRepeat, rfl, ?_⟩
  rw [perform, hclear]
  exact ⟨rfl, rfl⟩

/-- A finished track with a second position is at one end of its window: at the start it can be
sought one forward, and from the end back to the start. -/
theorem Coherent.exists_seekTarget_ne (h : p.Coherent) (hdone : p.lifecycle = .done)
    (hroom : p.params.start.val < p.params.farthest) :
    ∃ offset, fitsSigned offset = true ∧ p.seekTarget offset ≠ p.position := by
  have hrest := h.position_of_done hdone
  cases hlast : p.params.last? with
  | none =>
    refine ⟨1, by decide, ?_⟩
    have htarget := p.seekTarget_eq_clamp 1
    rw [hlast, Option.getD_none] at hrest
    unfold Params.clamp at htarget
    omega
  | some last =>
    refine ⟨0, by decide, ?_⟩
    have htarget := p.seekTarget_eq_clamp 0
    rw [hlast, Option.getD_some] at hrest
    rw [Params.farthest_of_last? hlast] at hroom
    unfold Params.clamp at htarget
    omega

theorem Coherent.canReopen_of_room (h : p.Coherent) (hdone : p.lifecycle = .done)
    (hroom : p.params.start.val < p.params.farthest) : p.CanReopen := by
  obtain ⟨offset, hfits, hmoves⟩ := h.exists_seekTarget_ne hdone hroom
  refine ⟨.seek offset, hfits, ?_⟩
  rw [Player.perform, h.seek_of_done hdone hmoves]
  exact ⟨rfl, rfl⟩

/-! ## Tracks that do not -/

/-- Each command has its own reason to refuse: the lifecycle, the play head that has nowhere to go,
or the counter that is empty. -/
theorem Coherent.perform_of_spent (h : p.Coherent) (hdone : p.lifecycle = .done)
    (hplays : p.plays = 0) (hpoint : p.params.farthest = p.params.start.val) (c : Command) :
    p.perform c = (p, false) := by
  have hstart := h.start_le_position
  have hend := h.position_le_farthest
  have hposition : p.position = p.params.start.val := by omega
  cases c with
  | play => rw [Player.perform, Player.play, if_neg (by simp [hdone])]
  | pause => rw [Player.perform, Player.pause, if_neg (by simp [hdone])]
  | rewind => rw [Player.perform, Player.rewind, if_neg (by simp [atStart, hposition, hplays])]
  | finish => rw [Player.perform, Player.finish, if_pos (isEnded_of_done hdone)]
  | clearRepeat =>
    rw [Player.perform, Player.clearRepeat, if_neg (by simp [hdone]), if_neg (by simp [hplays]),
      ← hplays]
  | seek offset => exact seek_of_still (h.seekTarget_of_point hpoint offset)

theorem Coherent.act_of_spent (h : p.Coherent) (hdone : p.lifecycle = .done)
    (hplays : p.plays = 0) (hpoint : p.params.farthest = p.params.start.val) (a : Action) :
    p.act a = some (a.refusal, p) := by
  cases a with
  | command c => rw [act_command, h.perform_of_spent hdone hplays hpoint c, Action.refusal]
  | advance budget =>
    exact act_advance_eq_some_iff.mpr ⟨_, advance_eq_iff.mpr (.ended (isEnded_of_done hdone)), rfl⟩

theorem Coherent.inert_of_spent (h : p.Coherent) (hdone : p.lifecycle = .done)
    (hplays : p.plays = 0) (hpoint : p.params.farthest = p.params.start.val) : p.Inert :=
  run_of_refused (h.act_of_spent hdone hplays hpoint)

theorem Coherent.canReopen_iff (h : p.Coherent) (hdone : p.lifecycle = .done) :
    p.CanReopen ↔ 1 ≤ p.plays ∨ p.params.start.val < p.params.farthest := by
  have hle := p.params.start_le_farthest
  constructor
  · intro hreopens
    by_contra hspent
    exact (h.inert_of_spent hdone (by omega) (by omega)).not_canReopen hreopens
  · rintro (hplays | hroom)
    · exact canReopen_of_plays hdone hplays
    · exact h.canReopen_of_room hdone hroom

theorem Coherent.inert_iff (h : p.Coherent) (hdone : p.lifecycle = .done) :
    p.Inert ↔ p.plays = 0 ∧ p.params.farthest = p.params.start.val := by
  have hle := p.params.start_le_farthest
  constructor
  · intro hinert
    have hnot := mt (h.canReopen_iff hdone).mpr hinert.not_canReopen
    omega
  · rintro ⟨hplays, hpoint⟩
    exact h.inert_of_spent hdone hplays hpoint

/-! ## Empty windows -/

/-- Time ends an empty window where it begins, and counts no pass. -/
theorem eq_of_advance_empty {budget : Nat} {report : Report}
    (hempty : p.params.extent.isEmpty = true) (hadvance : p.advance budget = some (report, q))
    (hopen : p.lifecycle ≠ .done) (hdone : q.lifecycle = .done) :
    q = { p with position := p.params.start.val, lifecycle := .done } := by
  cases advance_eq_iff.mp hadvance with
  | ended => exact absurd hdone hopen
  | buffer => exact absurd hdone hopen
  | ready => exact absurd hdone hopen
  | idle => exact absurd hdone hopen
  | skip => rfl
  | walk _ _ _ hwindow => simp [hempty] at hwindow

/-- Which finished tracks can be brought back.

One that has completed a pass, or whose window has a second position, is made idle again by a
rewind, a seek or a clearing of its repeats; any other one refuses everything and stays as it is.
An empty window that time has ended before any pass was counted is of the latter kind, whatever its
repeats; one with a number of passes that was made done is of the former. -/
theorem done_canReopen_or_inert (hreach : p.Reachable) :
    (p.lifecycle = .done →
      (p.CanReopen ↔ 1 ≤ p.plays ∨ p.params.start.val < p.params.farthest) ∧
      (p.Inert ↔ p.plays = 0 ∧ p.params.farthest = p.params.start.val)) ∧
    (p.params.extent.isEmpty = true →
      (∀ budget report q, p.advance budget = some (report, q) → p.lifecycle ≠ .done →
        q.lifecycle = .done → p.plays = 0 →
          q.plays = 0 ∧ q.params.farthest = q.params.start.val ∧ q.Inert) ∧
      (∀ passes q, p.params.repeats = .times passes → p.finish = (q, true) →
        1 ≤ q.plays ∧ q.CanReopen)) := by
  have h := hreach.coherent
  refine ⟨fun hdone => ⟨h.canReopen_iff hdone, h.inert_iff hdone⟩, fun hempty => ⟨?_, ?_⟩⟩
  · intro budget report q hadvance hopen hdone hplays
    have hq := h.advance hadvance
    obtain rfl := eq_of_advance_empty hempty hadvance hopen hdone
    have hpoint := Params.farthest_of_last? (Params.last?_of_isEmpty hempty)
    exact ⟨hplays, hpoint, hq.inert_of_spent hdone hplays hpoint⟩
  · intro passes q hrepeats hfinish
    have hactive : p.isEnded = false := by
      by_contra hended
      rw [finish, if_pos (by simpa using hended)] at hfinish
      cases hfinish
    rw [finish_of_active hactive] at hfinish
    cases hfinish
    have hplays : 1 ≤ p.exhausted := exhausted_of_times hrepeats ▸ h.passes_pos passes hrepeats
    exact ⟨hplays, canReopen_of_plays rfl hplays⟩

/-- An empty window that has been played and one that has been made done. -/
theorem done_canReopen_or_inert_on_empty_window :
    ∃ p q r s : Player, p.Reachable ∧ p.params.extent = .finite 0 ∧ p.lifecycle = .playing ∧
      p.advance 7 = some (⟨.trackDone, 0⟩, q) ∧ q.Inert ∧ ¬q.CanReopen ∧
      p.finish = (r, true) ∧ r.CanReopen ∧
      s.Reachable ∧ s.params.extent = .unbounded ∧ s.lifecycle = .done ∧ s.CanReopen := by
  have hrun : (new { start := 5, extent := .finite 0 }).run [.command .play, .advance 0] =
      some ([.acted true, .reported ⟨.trackReady, 0⟩],
        ⟨{ start := 5, extent := .finite 0 }, 0, 5, 0, .playing, true⟩) := by cbv
  have hreach : Reachable ⟨{ start := 5, extent := .finite 0 }, 0, 5, 0, .playing, true⟩ :=
    ⟨_, _, _, hrun⟩
  have hadvance : Player.advance ⟨{ start := 5, extent := .finite 0 }, 0, 5, 0, .playing, true⟩ 7 =
      some (⟨.trackDone, 0⟩, ⟨{ start := 5, extent := .finite 0 }, 0, 5, 0, .done, true⟩) := by cbv
  have hlive : (new { start := 5, repeats := .forever }).run [.command .finish] =
      some ([.acted true], ⟨{ start := 5, repeats := .forever }, 0, 5, 0, .done, false⟩) := by cbv
  have hreach' : Reachable ⟨{ start := 5, repeats := .forever }, 0, 5, 0, .done, false⟩ :=
    ⟨_, _, _, hlive⟩
  obtain ⟨htime, hforced⟩ := (done_canReopen_or_inert hreach).2 (by decide)
  obtain ⟨-, -, hinert⟩ := htime 7 _ _ hadvance (by decide) rfl rfl
  obtain ⟨-, hreopens⟩ := hforced 1 _ rfl rfl
  obtain ⟨hroom, -⟩ := (done_canReopen_or_inert hreach').1 rfl
  exact ⟨_, _, _, _, hreach, rfl, rfl, hadvance, hinert, hinert.not_canReopen, rfl, hreopens,
    hreach', rfl, rfl, hroom.mpr (.inr (by decide))⟩

end Player

end Playhead

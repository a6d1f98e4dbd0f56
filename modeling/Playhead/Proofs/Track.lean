import Playhead.Proofs.Player.Endless
import Playhead.Track

/-!
# The part of the content that is asked for

The window of a track has just the instants that its author asks for and that the content has
(`Track.inWindow_iff`), and it never ends behind the content. A player never leaves its window, so
a player of a track stays inside what was asked for (`Track.player_keeps_to_request`).
-/

namespace Playhead

/-- Whether the first `n` milliseconds are followed by another one. -/
def Extent.Has : Extent → Nat → Prop
  | finite length, n => n < length.val
  | unbounded, _ => True

namespace Track

variable {t : Track} {c : Content} {length : Millis}

/-- Instants that an author asks for. -/
def Asks (t : Track) (x : Nat) : Prop :=
  t.offset.val ≤ x ∧ (t.duration.val = 0 ∨ x < t.offset.val + t.duration.val)

/-- Instants that lie in the window of a track. -/
def InWindow (t : Track) (c : Content) (x : Nat) : Prop :=
  (t.window c).1.val ≤ x ∧ (t.window c).2.Has (x - (t.window c).1.val)

/-! ## Windows -/

theorem start_of_finite (hlength : c.length = .finite length) :
    (t.window c).1.val = min t.offset.val length.val := by
  have hle := length.val_le
  simp only [window, hlength, Millis.val_ofNat, capMillis]
  omega

/-- A window of finite content ends where the duration that is asked for ends, or the content. -/
theorem exists_extent_of_finite (hlength : c.length = .finite length) :
    ∃ d, (t.window c).2 = .finite d ∧
      (t.window c).1.val + d.val = if t.duration.val = 0 then length.val
        else min (min t.offset.val length.val + t.duration.val) length.val := by
  refine ⟨_, by rw [window, hlength], ?_⟩
  have hle := length.val_le
  rw [start_of_finite hlength]
  simp only [Millis.val_ofNat, capMillis]
  split <;> split <;> omega

/-- The window has what is asked for and exists. -/
theorem inWindow_iff (t : Track) (c : Content) (x : Nat) :
    t.InWindow c x ↔ t.Asks x ∧ c.length.Has x := by
  unfold InWindow Asks
  cases hlength : c.length with
  | finite length =>
    obtain ⟨d, hd, hend⟩ := exists_extent_of_finite (t := t) hlength
    have hstart := start_of_finite (t := t) hlength
    rw [hd]
    simp only [Extent.Has]
    split at hend <;> omega
  | unbounded =>
    simp only [window, hlength]
    by_cases hduration : 0 < t.duration.val
    · simp only [if_pos hduration, Extent.Has, and_true]
      omega
    · simp only [if_neg hduration, Extent.Has, and_true]
      omega

/-! ## Players of a track -/

theorem end_le_of_finite {d : Millis} (hlength : c.length = .finite length)
    (hd : (t.window c).2 = .finite d) : (t.window c).1.val + d.val ≤ length.val := by
  obtain ⟨d', hd', hend⟩ := exists_extent_of_finite (t := t) hlength
  rw [hd, Extent.finite.injEq] at hd'
  subst hd'
  rw [hend]
  split <;> omega

theorem fits_of_finite (hlength : c.length = .finite length) : (t.params c).Fits :=
  fun _ hd => Nat.le_trans (end_le_of_finite hlength hd) length.val_le

/-- As many passes as are asked for, up to what the counter holds. -/
theorem repeats_of_nonneg (h : 0 ≤ t.repeatCount) :
    ∃ passes, t.repeats = .times passes ∧ (passes.val : Int) ≤ t.repeatCount + 1 := by
  refine ⟨_, if_pos h, ?_⟩
  simp only [capPlays]
  omega

theorem not_stalls_of_nonneg (h : 0 ≤ t.repeatCount) (c : Content) : ¬(t.params c).Stalls := by
  intro hstalls
  obtain ⟨passes, hrepeats, -⟩ := repeats_of_nonneg h
  cases hrepeats.symm.trans hstalls.repeats_eq

section Run

variable {actions : List Action} {replies : List Reply} {p : Player}

/-- The play head of a player stays between the start of its window and the end of the content. -/
theorem position_of_run (hlength : c.length = .finite length)
    (hrun : (Player.ofTrack t c).run actions = some (replies, p)) :
    min t.offset.val length.val ≤ p.position ∧ p.position ≤ length.val := by
  obtain ⟨hcoherent, hparams⟩ := Player.run_new_coherent hrun
  have hstart := hcoherent.start_le_position
  obtain ⟨d, hd, -⟩ := exists_extent_of_finite (t := t) hlength
  have hlast := (fits_of_finite hlength).last?_eq hd
  have hle := hcoherent.position_le_last _ ((congrArg Params.last? hparams).trans hlast)
  rw [hparams] at hstart
  constructor
  · rw [← start_of_finite hlength]
    exact hstart
  · exact Nat.le_trans hle (end_le_of_finite hlength hd)

theorem plays_of_run (h : 0 ≤ t.repeatCount)
    (hrun : (Player.ofTrack t c).run actions = some (replies, p)) :
    (p.plays : Int) ≤ t.repeatCount + 1 := by
  obtain ⟨hcoherent, hparams⟩ := Player.run_new_coherent hrun
  obtain ⟨passes, hrepeats, hpasses⟩ := repeats_of_nonneg h
  have heq : p.params.repeats = (Repeat.times passes).atLeastOnce := by
    rw [hparams, ← hrepeats]
    rfl
  dsimp only [Repeat.atLeastOnce] at heq
  split at heq
  · -- A track without passes is played once.
    have hplays : p.plays ≤ 1 := hcoherent.plays_le_passes _ heq
    omega
  · have hplays := hcoherent.plays_le_passes _ heq
    omega

end Run

/-- A player keeps to what the author of its track asks for. The window of a track has just the
instants that are asked for and that the content has, and it lies inside the content if this has an
end; live content without a duration gives a window without an end. Whatever is done to a player of
a track with finite content, its play head stays between the place where it begins and the end of
the content; and a player completes at most one pass more than the repeats that are asked for. -/
theorem player_keeps_to_request (t : Track) (c : Content) :
    (∀ length, c.length = .finite length → ∃ start d, t.window c = (start, .finite d) ∧
      start.val ≤ length.val ∧ start.val + d.val ≤ length.val ∧
      (∀ x, start.val ≤ x ∧ x < start.val + d.val ↔ t.offset.val ≤ x ∧ x < length.val ∧
        (t.duration.val = 0 ∨ x < t.offset.val + t.duration.val)) ∧
      ∀ actions, ∃ replies p, (Player.ofTrack t c).run actions = some (replies, p) ∧
        min t.offset.val length.val ≤ p.position ∧ p.position ≤ length.val) ∧
    (c.length = .unbounded → ((t.window c).2 = .unbounded ↔ t.duration.val = 0) ∧
      ∀ x, t.InWindow c x ↔
        t.offset.val ≤ x ∧ (t.duration.val = 0 ∨ x < t.offset.val + t.duration.val)) ∧
    (0 ≤ t.repeatCount → ∀ actions, ∃ replies p,
      (Player.ofTrack t c).run actions = some (replies, p) ∧
        (p.plays : Int) ≤ t.repeatCount + 1) := by
  refine ⟨?_, ?_, ?_⟩
  · intro length hlength
    obtain ⟨d, hd, -⟩ := exists_extent_of_finite (t := t) hlength
    have hend := end_le_of_finite hlength hd
    refine ⟨(t.window c).1, d, Prod.ext rfl hd, by omega, hend, ?_, ?_⟩
    · intro x
      have hwindow := t.inWindow_iff c x
      simp only [InWindow, Asks, hd, hlength, Extent.Has] at hwindow
      omega
    · intro actions
      obtain ⟨replies, p, hrun⟩ :=
        Player.exists_run (p := .ofTrack t c) (fits_of_finite hlength) actions
      exact ⟨replies, p, hrun, position_of_run hlength hrun⟩
  · intro hlength
    constructor
    · simp only [window, hlength]
      split
      · exact iff_of_false nofun (by omega)
      · exact iff_of_true rfl (by omega)
    · intro x
      have hwindow := t.inWindow_iff c x
      simpa only [Asks, hlength, Extent.Has, and_true] using hwindow
  · intro hrepeats actions
    have hresponsive : (Player.ofTrack t c).Responsive :=
      Player.responsive_new (not_stalls_of_nonneg hrepeats c)
    obtain ⟨replies, p, hrun⟩ := hresponsive.exists_run actions
    exact ⟨replies, p, hrun, plays_of_run hrepeats hrun⟩

/-- The end of a track, asked for twice and for longer than it is. -/
def ending : Track := { offset := 30, duration := 50, repeatCount := 1 }

/-- However far it is moved back, the play head stays in the last ten milliseconds, and it gets to
the end of them after two passes. -/
theorem player_keeps_to_request_at_ending :
    let actions : List Action :=
      [.command .play, .advance 0, .command (.seek (-100)), .advance 25]
    ∃ start d replies p, ending.window { length := .finite 40 } = (start, .finite d) ∧
      start.val + d.val ≤ 40 ∧
      (Player.ofTrack ending { length := .finite 40 }).run actions = some (replies, p) ∧
      p.lifecycle = .done ∧ 30 ≤ p.position ∧ p.position ≤ 40 ∧ (p.plays : Int) ≤ 1 + 1 := by
  intro actions
  obtain ⟨hfinite, -, hpasses⟩ := player_keeps_to_request ending { length := .finite 40 }
  obtain ⟨start, d, hwindow, -, hend, -, hruns⟩ := hfinite 40 rfl
  obtain ⟨replies, p, hrun, hstart, hlast⟩ := hruns actions
  obtain ⟨replies', p', hrun', hplays⟩ := hpasses (by decide) actions
  rw [hrun] at hrun'
  cases hrun'
  have hdone : ((Player.ofTrack ending { length := .finite 40 }).run actions).map
      (·.2.lifecycle) = some .done := by cbv
  rw [hrun] at hdone
  exact ⟨start, d, replies, p, hwindow, hend, hrun, Option.some.inj hdone, hstart, hlast, hplays⟩

end Track

end Playhead

import Playhead.Proofs.Track
import Playhead.Soak

/-!
# The arithmetic of an advance

A walk takes what it spends out of its budget turn by turn, and counts passes at once by dividing
what is left by the length of the window. `Player.Visits` says which turns an advance comes to, and
`Player.InBounds` what holds at each of them: what was spent is no more than the budget, the play
head is in its window, and only windows that are not empty have their passes counted. So no
difference falls below zero and no product goes past the budget (`advance_in_bounds`). Nor does the
length of a window, or the distance that a soak scales its actions by.
-/

namespace Playhead

namespace Player

variable {p q r : Player} {budget spent cost : Nat} {report : Report}

/-- The turns that an advance comes to: the player before the turn, and what was spent before it. -/
inductive Visits (p : Player) (budget : Nat) : Player → Nat → Prop where
  | enter (hplaying : p.lifecycle = .playing) (hdue : p.buffering ≤ budget)
      (hready : p.announced = true) (hwindow : p.params.extent.isEmpty = false) :
      Visits p budget p 0
  | lap {q r : Player} {spent cost : Nat} (hvisits : Visits p budget q spent)
      (hturn : q.turn true (budget - spent) = .lap cost r) : Visits p budget r (spent + cost)

/-- What is left of an advance at a turn is the walk from there. -/
theorem Visits.advance_eq (h : p.Visits budget q spent) :
    p.advance budget = q.walk true (budget - spent) spent := by
  induction h with
  | enter hplaying hdue hready hwindow =>
    exact advance_eq_iff.mpr (.walk hplaying hdue hready hwindow rfl)
  | @lap q r spent cost _ hturn ih =>
    rw [ih, ← Nat.sub_sub]
    by_cases hrest : cost = 0 ∧ r.position = q.position ∧ r.plays = q.plays
    · -- A turn that changes nothing is followed by itself.
      obtain rfl := eq_of_rest hturn hrest.2.1 hrest.2.2
      obtain rfl := hrest.1
      rfl
    · exact walk_of_lap hturn hrest

theorem Visits.coherent (h : p.Visits budget q spent) (hp : p.Coherent) :
    q.Coherent ∧ q.lifecycle = .playing := by
  induction h with
  | enter hplaying => exact ⟨hp, hplaying⟩
  | lap _ hturn ih =>
    obtain ⟨hr, hplaying, -⟩ := ih.1.lap ih.2 hturn
    exact ⟨hr, hplaying⟩

theorem Visits.spent_le (h : p.Visits budget q spent) : spent ≤ budget := by
  induction h with
  | enter => exact Nat.zero_le _
  | lap _ hturn ih =>
    obtain ⟨hcost, -⟩ := lap_of_turn hturn
    omega

theorem Visits.isEmpty_eq (h : p.Visits budget q spent) : q.params.extent.isEmpty = false := by
  induction h with
  | enter _ _ _ hwindow => exact hwindow
  | lap _ hturn ih =>
    obtain ⟨-, -, hparams, -⟩ := lap_of_turn hturn
    exact hparams ▸ ih

/-- The turn that ends an advance takes no more than is left. -/
theorem elapsed_le_of_stop {folding : Bool} {left : Nat}
    (h : p.turn folding left = .stop report q) : report.elapsed ≤ left := by
  cases turn_eq_iff.mp h with
  | fail hfail =>
    obtain ⟨-, -, -, hle, -⟩ := failure?_eq_some_iff.mp hfail
    exact hle
  | done _ _ hreach => exact hreach
  | drift => exact Nat.le_refl _

/-- How the time of a completed pass and of those that are counted with it is made up: what is left
pays for the way to the end, and what is left then for the rest. -/
structure LapInBounds (q : Player) (budget spent cost : Nat) : Prop where
  exists_parts : ∃ (length : Millis) (toEnd laps : Nat), q.params.extent = .finite length ∧
    0 < length.val ∧ q.toEnd? = some toEnd ∧ spent + toEnd ≤ budget ∧
    laps = q.params.freeLaps (budget - (spent + toEnd)) ∧
    laps * length.val ≤ budget - (spent + toEnd) ∧ laps * length.val ≤ lastMillis ∧
    cost = toEnd + laps * length.val
  spent_le : spent + cost ≤ budget

/-- What holds at a turn with `spent` of the budget behind it. -/
structure InBounds (q : Player) (budget spent : Nat) : Prop where
  spent_le : spent ≤ budget
  start_le_position : q.params.start.val ≤ q.position
  position_le_last : ∀ last, q.params.last? = some last → q.position ≤ last
  stop_le : ∀ report r, q.turn true (budget - spent) = .stop report r →
    spent + report.elapsed ≤ budget
  lap : ∀ cost r, q.turn true (budget - spent) = .lap cost r → q.LapInBounds budget spent cost

theorem lapInBounds_of_turn (hwindow : q.params.extent.isEmpty = false) (hspent : spent ≤ budget)
    (hbudget : budget ≤ lastMillis) (hturn : q.turn true (budget - spent) = .lap cost r) :
    q.LapInBounds budget spent cost := by
  obtain ⟨hcost, -⟩ := lap_of_turn hturn
  refine ⟨?_, by omega⟩
  cases turn_eq_iff.mp hturn with
  | @lap last laps hfail hlast hreach hmore hlaps =>
    obtain ⟨length, hext⟩ := Params.exists_finite_of_last? hlast
    have hcounted := q.params.freeLaps_mul_window_le (budget - (spent + (last - q.position)))
    rw [if_pos rfl, Nat.sub_sub] at hlaps
    rw [← hlaps, Params.window_eq hext] at hcounted
    refine ⟨length, last - q.position, laps, hext, Params.length_pos hext hwindow, ?_, by omega,
      hlaps, hcounted, by omega, by rw [Params.window_eq hext]⟩
    rw [toEnd?, hlast, Option.map_some]

theorem Visits.inBounds (h : p.Visits budget q spent) (hp : p.Coherent)
    (hbudget : budget ≤ lastMillis) : q.InBounds budget spent := by
  have hspent := h.spent_le
  obtain ⟨hcoherent, -⟩ := h.coherent hp
  refine ⟨hspent, hcoherent.start_le_position, hcoherent.position_le_last, ?_, ?_⟩
  · intro report r hturn
    have hle := elapsed_le_of_stop hturn
    omega
  · intro cost r hturn
    exact lapInBounds_of_turn h.isEmpty_eq hspent hbudget hturn

end Player

/-! ## Lengths and distances -/

/-- Where the part that is asked for begins and ends in content of a length. -/
def Track.bounds (t : Track) (length : Millis) : Nat × Nat :=
  let start := min t.offset.val length.val
  (start, if 0 < t.duration.val then min (capMillis (start + t.duration.val)) length.val
    else length.val)

theorem Track.bounds_le (t : Track) (length : Millis) :
    (t.bounds length).1 ≤ (t.bounds length).2 := by
  have hlength := length.val_le
  simp only [bounds, capMillis]
  split <;> omega

theorem Track.window_eq_bounds {t : Track} {c : Content} {length : Millis}
    (hlength : c.length = .finite length) :
    t.window c = (.ofNat (t.bounds length).1,
      .finite (.ofNat ((t.bounds length).2 - (t.bounds length).1))) := by
  rw [window, hlength]
  rfl

theorem Soak.span_eq {p : Params} {last : Nat} (hlast : p.last? = some last) :
    Soak.span p = max (last - p.start.val) 1 := by
  rw [span, hlast]
  rfl

/-- Whatever was done to a player, the arithmetic of its advances stays in bounds: at every turn
that an advance by a word comes to, and so for the whole of it. The differences that give the length
of a window of finite content and the distance that a soak scales its actions by are none below zero
either. -/
theorem Player.advance_in_bounds {p : Player} {budget : Nat} (hreach : p.Reachable)
    (hbudget : budget ≤ lastMillis) :
    (∀ q spent, p.Visits budget q spent → q.InBounds budget spent ∧
      p.advance budget = q.walk true (budget - spent) spent) ∧
    (∀ report q, p.advance budget = some (report, q) → report.elapsed ≤ budget) ∧
    ∀ (t : Track) (c : Content),
      (∀ length, c.length = .finite length → (t.bounds length).1 ≤ (t.bounds length).2 ∧
        t.window c = (.ofNat (t.bounds length).1,
          .finite (.ofNat ((t.bounds length).2 - (t.bounds length).1)))) ∧
      ∀ last, (Player.ofTrack t c).params.last? = some last →
        (Player.ofTrack t c).params.start.val ≤ last ∧
        Soak.span (Player.ofTrack t c).params =
          max (last - (Player.ofTrack t c).params.start.val) 1 := by
  refine ⟨?_, fun report q => elapsed_le_budget, ?_⟩
  · intro q spent hvisits
    exact ⟨hvisits.inBounds hreach.coherent hbudget, hvisits.advance_eq⟩
  · intro t c
    refine ⟨fun length hlength => ⟨t.bounds_le length, Track.window_eq_bounds hlength⟩, ?_⟩
    intro last hlast
    exact ⟨Params.start_le_last hlast, Soak.span_eq hlast⟩

/-- An endless track whose window of ten milliseconds is cut off after three by the end of the time
line, in the second turn of an advance: the first has walked one pass and counted three. -/
theorem Player.advance_in_bounds_on_cut_window :
    ∃ p q : Player, p.Reachable ∧ p.params.extent = .finite 10 ∧
      p.params.last? = some (p.params.start.val + 3) ∧ p.Visits 45 q 33 ∧ q.plays = 4 ∧
      q.InBounds 45 33 ∧ p.advance 45 = q.walk true 12 33 := by
  have hrun :
      (new { repeats := .forever, start := 18446744073709551612, extent := .finite 10 }).run
        [.command .play, .advance 0] =
      some ([.acted true, .reported ⟨.trackReady, 0⟩],
        ⟨{ repeats := .forever, start := 18446744073709551612, extent := .finite 10 },
          0, 18446744073709551612, 0, .playing, true⟩) := by cbv
  have hreach : Reachable
      ⟨{ repeats := .forever, start := 18446744073709551612, extent := .finite 10 },
        0, 18446744073709551612, 0, .playing, true⟩ := ⟨_, _, _, hrun⟩
  have hturn : Player.turn
      ⟨{ repeats := .forever, start := 18446744073709551612, extent := .finite 10 },
        0, 18446744073709551612, 0, .playing, true⟩ true 45 = .lap 33
      ⟨{ repeats := .forever, start := 18446744073709551612, extent := .finite 10 },
        0, 18446744073709551612, 4, .playing, true⟩ := by cbv
  have hvisits := (Visits.enter rfl (by decide) rfl (by decide)).lap hturn
  have hbudget : 45 ≤ lastMillis := by decide
  obtain ⟨hturns, -⟩ := advance_in_bounds hreach hbudget
  obtain ⟨hbounds, hadvance⟩ := hturns _ _ hvisits
  exact ⟨_, _, hreach, rfl, by decide, hvisits, rfl, hbounds, hadvance⟩

end Playhead

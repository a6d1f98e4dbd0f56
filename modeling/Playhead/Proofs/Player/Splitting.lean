import Playhead.Proofs.Player.Window

/-!
# Splitting a budget

Time that passes in two portions passes as it does in one. A walk with more budget takes the same
turns (`walk_add`): where the shorter one was stopped by a boundary so is the longer one, and where
it ran out of budget the longer one goes on as a walk from there would. Advances inherit both
halves: `Coherent.advance_add_of_boundary` and `Coherent.advance_add_of_routine`.
-/

namespace Playhead

/-- A turn that comes `a` later. -/
def Turn.delay (a : Nat) : Turn → Turn
  | .stop report q => .stop { report with elapsed := a + report.elapsed } q
  | .lap cost q => .lap (a + cost) q

namespace Player

variable {p q : Player} {left spent a b : Nat} {report : Report}

/-- The time line is long enough for an advance by `budget`: it holds the whole window, or `budget`
more of a window without an end. -/
structure HasRoom (p : Player) (budget : Nat) : Prop where
  fits : p.params.Fits
  unbounded : p.params.extent = .unbounded → p.position + budget ≤ lastMillis

/-! ## More budget -/

theorem failure?_add_of_some {ahead : Nat} (h : p.failure? left = some ahead) (b : Nat) :
    p.failure? (left + b) = some ahead := by
  obtain ⟨limit, hlimit, hahead, hle, hend⟩ := failure?_eq_some_iff.mp h
  exact failure?_eq_some_iff.mpr ⟨limit, hlimit, hahead, by omega, hend⟩

theorem failure?_add_of_reach {last : Nat} (h : p.failure? left = none)
    (hlast : p.params.last? = some last) (hreach : last - p.position ≤ left) (b : Nat) :
    p.failure? (left + b) = none := by
  rw [failure?_eq_none_iff] at h ⊢
  intro limit hlimit hle
  by_cases hleft : limit.val - p.played ≤ left
  · exact h limit hlimit hleft
  · exact ⟨last, hlast, by omega⟩

/-! ## Going on inside a pass -/

/-- The player after moving on by `a` inside its pass. -/
def moved (p : Player) (a : Nat) : Player := { p with position := p.position + a }

theorem heard_moved (hstart : p.params.start.val ≤ p.position) (a : Nat) :
    (p.moved a).heard = p.heard + a := by
  simp only [heard, moved]
  omega

/-- A failure that lies ahead comes nearer by the time that passes. -/
theorem failure?_moved (hstart : p.params.start.val ≤ p.position) (hfail : p.failure? a = none)
    (hroom : ∀ last, p.params.last? = some last → a < last - p.position) (b : Nat) :
    p.failure? (a + b) = ((p.moved a).failure? b).map (a + ·) := by
  have hahead := heard_lt_of_drift hfail hroom
  cases hmoved : (p.moved a).failure? b with
  | some ahead =>
    obtain ⟨limit, hlimit, hdist, hle, hend⟩ := failure?_eq_some_iff.mp hmoved
    rw [limit_sub_played, heard_moved hstart] at hdist
    have hlt := hahead limit hlimit
    rw [Option.map_some]
    refine failure?_eq_some_iff.mpr ⟨limit, hlimit, ?_, by omega, ?_⟩
    · rw [limit_sub_played]
      omega
    · intro last hlast
      have hlast' := hend last hlast
      have := hroom last hlast
      simp only [moved] at hlast'
      omega
  | none =>
    rw [failure?_eq_none_iff] at hmoved
    rw [Option.map_none, failure?_eq_none_iff]
    intro limit hlimit hle
    have hlt := hahead limit hlimit
    rw [limit_sub_played] at hle ⊢
    obtain ⟨last, hlast, hbefore⟩ := hmoved limit hlimit (by
      rw [limit_sub_played, heard_moved hstart]
      omega)
    rw [limit_sub_played, heard_moved hstart] at hbefore
    refine ⟨last, hlast, ?_⟩
    have := hroom last hlast
    simp only [moved] at hbefore
    omega

/-- A turn with more budget is the turn from further on, that much later. -/
theorem turn_add (hstart : p.params.start.val ≤ p.position) (hfail : p.failure? a = none)
    (hroom : ∀ last, p.params.last? = some last → a < last - p.position) (b : Nat) :
    p.turn false (a + b) = ((p.moved a).turn false b).delay a := by
  have hfailure := failure?_moved hstart hfail hroom b
  rw [turn_eq_iff]
  generalize hturn : (p.moved a).turn false b = t
  cases turn_eq_iff.mp hturn with
  | @fail ahead hmoved =>
    have hfail' : p.failure? (a + b) = some (a + ahead) := by rw [hfailure, hmoved, Option.map_some]
    simp only [Turn.delay, moved, Nat.add_assoc]
    exact .fail hfail'
  | @lap last laps hmoved hlast hreach hmore hlaps =>
    have hfail' : p.failure? (a + b) = none := by rw [hfailure, hmoved, Option.map_none]
    have hshort := hroom last hlast
    have hcost : a + (last - (p.position + a) + laps * p.params.window) =
        last - p.position + laps * p.params.window := by omega
    simp only [moved] at hreach
    simp only [Turn.delay, moved, hcost]
    exact .lap hfail' hlast (by omega) hmore hlaps
  | @done last hmoved hlast hreach hover =>
    have hfail' : p.failure? (a + b) = none := by rw [hfailure, hmoved, Option.map_none]
    have hshort := hroom last hlast
    have hcost : a + (last - (p.position + a)) = last - p.position := by omega
    simp only [moved] at hreach
    simp only [Turn.delay, moved, hcost]
    exact .done hfail' hlast (by omega) hover
  | drift hmoved hshort =>
    have hfail' : p.failure? (a + b) = none := by rw [hfailure, hmoved, Option.map_none]
    simp only [moved] at hshort
    simp only [Turn.delay, moved, Nat.add_assoc]
    exact .drift hfail' fun last hlast => by
      have hbefore := hshort last hlast
      omega

/-- A walk that ran out of budget goes on, with more budget, as a walk from where it got to. -/
theorem walk_resume (hfits : p.params.Fits) (hwindow : p.params.extent.isEmpty = false)
    (hstart : p.params.start.val ≤ p.position) (hfail : p.failure? a = none)
    (hroom : ∀ last, p.params.last? = some last → a < last - p.position) :
    p.walk false (a + b) spent = (p.moved a).walk false b (spent + a) := by
  have hturn := turn_add hstart hfail hroom b
  cases hnext : (p.moved a).turn false b with
  | stop report q =>
    rw [hnext, Turn.delay] at hturn
    rw [walk_of_stop hturn, walk_of_stop hnext, Nat.add_assoc]
  | lap cost q =>
    rw [hnext, Turn.delay] at hturn
    rw [walk_lap hfits hwindow hturn, walk_lap (p := p.moved a) hfits hwindow hnext,
      Nat.add_sub_add_left, Nat.add_assoc]

theorem HasRoom.capMillis_eq (h : p.HasRoom a)
    (hroom : ∀ last, p.params.last? = some last → a < last - p.position) :
    capMillis (p.position + a) = p.position + a := by
  refine capMillis_of_le ?_
  cases hext : p.params.extent with
  | unbounded => exact h.unbounded hext
  | finite length =>
    have hlast := h.fits.last?_eq hext
    have hmax := Params.last_le_lastMillis hlast
    have hshort := hroom _ hlast
    omega

/-- A walk with more budget does what the shorter walk did, and goes on from there if only the
budget stopped it. -/
theorem walk_add (hroom : p.HasRoom a) (hwindow : p.params.extent.isEmpty = false)
    (hstart : p.params.start.val ≤ p.position) (b : Nat)
    (hwalk : p.walk false a spent = some (report, q)) :
    p.walk false (a + b) spent =
      if report.event = .timeUpdate then q.walk false b (spent + a) else some (report, q) := by
  refine walk_induction
    -- The longer walk comes through every player that the shorter one comes through.
    (I := fun r left' spent' => p.walk false (a + b) spent = r.walk false (left' + b) spent' ∧
      spent' + left' = spent + a ∧ r.params = p.params ∧ p.params.start.val ≤ r.position ∧
      r.HasRoom left')
    (Q := fun report r => p.walk false (a + b) spent =
      if report.event = .timeUpdate then r.walk false b (spent + a) else some (report, r))
    ?_ ?_ ⟨rfl, rfl, rfl, hstart, hroom⟩ hwalk
  · rintro r s left' spent' cost ⟨hlong, htotal, hparams, hstart', hroom'⟩ hturn
    obtain ⟨hcost, -⟩ := lap_of_turn hturn
    cases turn_eq_iff.mp hturn with
    | lap hfail hlast hreach hmore hlaps =>
      have hlonger : r.turn false (left' + b) = _ :=
        turn_eq_iff.mpr (.lap (failure?_add_of_reach hfail hlast hreach b) hlast (by omega) hmore
          (by simpa using hlaps))
      obtain ⟨length, hext⟩ := Params.exists_finite_of_last? hlast
      refine ⟨?_, by omega, hparams, hparams ▸ Nat.le_refl _, ⟨hroom'.fits, ?_⟩⟩
      · rw [hlong, walk_lap hroom'.fits (hparams ▸ hwindow) hlonger, Nat.sub_add_comm hcost]
      · intro hunbounded
        rw [hext] at hunbounded
        cases hunbounded
  · rintro r s left' spent' report ⟨hlong, htotal, hparams, hstart', hroom'⟩ hturn
    rw [hlong]
    cases turn_eq_iff.mp hturn with
    | fail hfail =>
      have hlonger : r.turn false (left' + b) = _ :=
        turn_eq_iff.mpr (.fail (failure?_add_of_some hfail b))
      rw [walk_of_stop hlonger, if_neg (by simp)]
    | done hfail hlast hreach hover =>
      have hlonger : r.turn false (left' + b) = _ :=
        turn_eq_iff.mpr (.done (failure?_add_of_reach hfail hlast hreach b) hlast (by omega) hover)
      rw [walk_of_stop hlonger, if_neg (by simp)]
    | drift hfail hshort =>
      rw [if_pos rfl, walk_resume hroom'.fits (hparams ▸ hwindow) (hparams ▸ hstart') hfail hshort,
        htotal, moved, hroom'.capMillis_eq hshort]

theorem HasRoom.mono (h : p.HasRoom (a + b)) : p.HasRoom a :=
  ⟨h.fits, fun hunbounded => Nat.le_trans (by omega) (h.unbounded hunbounded)⟩

theorem Coherent.walk_add (h : p.Coherent) (hplaying : p.lifecycle = .playing)
    (hready : p.announced = true) (hroom : p.HasRoom a)
    (hwindow : p.params.extent.isEmpty = false) (b : Nat)
    (hwalk : p.walk true a spent = some (report, q)) :
    p.walk true (a + b) spent =
      if report.event = .timeUpdate then q.walk true b (spent + a) else some (report, q) := by
  have hq := h.walk hplaying hready hwalk
  obtain ⟨hparams, -⟩ := walk_frame hwalk
  rw [h.walk_folding_eq hroom.fits hwindow] at hwalk ⊢
  rw [hq.walk_folding_eq (hparams ▸ hroom.fits) (hparams ▸ hwindow)]
  exact Player.walk_add hroom hwindow h.start_le_position b hwalk

/-! ## Advances -/

/-- Over a window without an end the play head moves by no more than the time that passes. -/
theorem position_walk_le {folding : Bool} (hunbounded : p.params.extent = .unbounded)
    (h : p.walk folding left 0 = some (report, q)) : q.position ≤ p.position + report.elapsed := by
  have hendless : ∀ {r : Player} {last : Nat},
      r.params = p.params → r.params.last? ≠ some last := by
    rintro r last hparams hlast
    obtain ⟨length, hext⟩ := Params.exists_finite_of_last? hlast
    rw [hparams, hunbounded] at hext
    cases hext
  refine walk_induction
    (I := fun r _ spent => r.params = p.params ∧ r.position ≤ p.position + spent)
    (Q := fun report r => r.position ≤ p.position + report.elapsed) ?_ ?_ ⟨rfl, Nat.le_refl _⟩ h
  · rintro r s left spent cost ⟨hparams, -⟩ hturn
    cases turn_eq_iff.mp hturn with
    | lap hfail hlast hreach hmore hlaps => exact absurd hlast (hendless hparams)
  · rintro r s left spent report ⟨hparams, hle⟩ hturn
    cases turn_eq_iff.mp hturn with
    | @fail ahead hfail =>
      have := Nat.min_le_left (r.position + ahead) lastMillis
      simp only [capMillis]
      omega
    | done hfail hlast hreach hover => exact absurd hlast (hendless hparams)
    | drift hfail hshort =>
      have := Nat.min_le_left (r.position + left) lastMillis
      simp only [capMillis]
      omega

theorem position_advance_le (hunbounded : p.params.extent = .unbounded)
    (h : p.advance a = some (report, q)) : q.position ≤ p.position + report.elapsed := by
  cases advance_eq_iff.mp h with
  | skip hplaying hdue hready hempty => simp [hunbounded, Extent.isEmpty] at hempty
  | walk hplaying hdue hready hwindow hwalk => exact position_walk_le hunbounded hwalk
  | _ => exact Nat.le_add_right _ _

theorem HasRoom.advance {budget : Nat} (hroom : p.HasRoom budget) (hle : a ≤ budget)
    (h : p.advance a = some (report, q)) : q.HasRoom (budget - report.elapsed) := by
  have hparams := advance_params h
  refine ⟨hparams ▸ hroom.fits, ?_⟩
  intro hunbounded
  rw [hparams] at hunbounded
  have hmax := hroom.unbounded hunbounded
  have hposition := position_advance_le hunbounded h
  have hspent := elapsed_le_budget h
  omega

/-- A boundary that stops an advance stops every longer one. -/
theorem Coherent.advance_add_of_boundary (h : p.Coherent) (hroom : p.HasRoom a) (b : Nat)
    (hadvance : p.advance a = some (report, q)) (hboundary : report.event.isBoundary = true) :
    p.advance (a + b) = some (report, q) := by
  cases advance_eq_iff.mp hadvance with
  | ended hended => cases hboundary
  | buffer hactive hearly => cases hboundary
  | ready hactive hdue hfresh => exact advance_eq_iff.mpr (.ready hactive (by omega) hfresh)
  | idle hidle hdue hready => cases hboundary
  | skip hplaying hdue hready hempty =>
    exact advance_eq_iff.mpr (.skip hplaying (by omega) hready hempty)
  | walk hplaying hdue hready hwindow hwalk =>
    refine advance_eq_iff.mpr (.walk hplaying (by omega) hready hwindow ?_)
    rw [h.walk_add hplaying hready hroom hwindow b hwalk, if_neg]
    intro hupdate
    rw [hupdate] at hboundary
    cases hboundary

/-- Where an advance used up its budget without a boundary, a longer one goes on from there. -/
theorem Coherent.advance_add_of_routine (h : p.Coherent) (hroom : p.HasRoom a) (b : Nat)
    (hadvance : p.advance a = some (report, q)) (hroutine : report.event.isBoundary = false)
    (hspent : report.elapsed = a) :
    p.advance (a + b) =
      (q.advance b).map fun result =>
        ({ result.1 with elapsed := a + result.1.elapsed }, result.2) := by
  cases advance_eq_iff.mp hadvance with
  | ended hended =>
    -- An ended track spends nothing, so the first portion was empty.
    simp only at hspent
    subst hspent
    simp only [Nat.zero_add]
    exact Option.map_id'.symm
  | buffer hactive hearly =>
    have hfresh : p.announced ≠ true := fun hready => by
      have := h.buffering_of_announced hready
      omega
    -- Buffering that goes on: the second portion starts with what the first has left of it.
    generalize hnext : Player.advance _ b = result
    cases advance_eq_iff.mp hnext with
    | ended hended => exact absurd (hactive.symm.trans hended) (by decide)
    | buffer _ hearly' =>
      simp only at hearly'
      simp only [Option.map_some, Nat.sub_sub]
      exact advance_eq_iff.mpr (.buffer hactive (by omega))
    | ready _ hdue hfresh' =>
      simp only at hdue
      have htotal : a + (p.buffering - a) = p.buffering := by omega
      simp only [Option.map_some, htotal]
      exact advance_eq_iff.mpr (.ready hactive (by omega) hfresh')
    | idle _ _ hready => exact absurd hready hfresh
    | skip _ _ hready _ => exact absurd hready hfresh
    | walk _ _ hready _ _ => exact absurd hready hfresh
  | ready hactive hdue hfresh => cases hroutine
  | idle hidle hdue hready =>
    have hbuffered := h.buffering_of_announced hready
    have hnext : p.advance b = _ := advance_eq_iff.mpr (.idle hidle (by omega) hready)
    rw [hnext]
    exact advance_eq_iff.mpr (.idle hidle (by omega) hready)
  | skip hplaying hdue hready hempty => cases hroutine
  | walk hplaying hdue hready hwindow hwalk =>
    obtain ⟨hparams, hbuffering, hannounced⟩ := walk_frame hwalk
    have hbuffered := h.buffering_of_announced hready
    cases ends_of_walk hwalk with
    | update hkept =>
      have hnext : q.advance b = q.walk true b 0 :=
        advance_eq_iff.mpr (.walk (hkept.trans hplaying) (by omega) (hannounced.trans hready)
          (hparams ▸ hwindow) rfl)
      rw [hnext, ← walk_spent_add a]
      refine advance_eq_iff.mpr (.walk hplaying (by omega) hready hwindow ?_)
      rw [h.walk_add hplaying hready hroom hwindow b hwalk, if_pos rfl, Nat.zero_add, Nat.add_zero]
    | done => cases hroutine
    | fail => cases hroutine

/-- Splitting a budget changes nothing: an advance that spends `a` on nothing but routine, followed
by an advance by `b`, does what a single advance by `a + b` does. -/
theorem advance_split {r : Player} {e : Event} (hreach : p.Reachable) (hroom : p.HasRoom (a + b))
    (ha : p.advance a = some (⟨e, a⟩, q)) (hroutine : e.isBoundary = false)
    (hb : q.advance b = some (report, r)) :
    p.advance (a + b) = some (⟨report.event, a + report.elapsed⟩, r) := by
  rw [hreach.coherent.advance_add_of_routine hroom.mono b ha hroutine rfl, hb, Option.map_some]

/-- Three milliseconds and then six, in which the last of two passes ends, or nine at once. -/
theorem advance_split_over_end :
    ∃ p q report r, Reachable p ∧ p.HasRoom (3 + 6) ∧
      p.advance 3 = some (⟨.timeUpdate, 3⟩, q) ∧ q.advance 6 = some (report, r) ∧
      p.advance (3 + 6) = some (⟨report.event, 3 + report.elapsed⟩, r) := by
  have hnew : (new { repeats := .times 2, extent := .finite 4 }).run
      [.command .play, .advance 0] = some ([.acted true, .reported ⟨.trackReady, 0⟩],
        ⟨{ repeats := .times 2, extent := .finite 4 }, 0, 0, 0, .playing, true⟩) := by cbv
  have ha : Player.advance ⟨{ repeats := .times 2, extent := .finite 4 }, 0, 0, 0, .playing, true⟩
      3 = some (⟨.timeUpdate, 3⟩,
        ⟨{ repeats := .times 2, extent := .finite 4 }, 0, 3, 0, .playing, true⟩) := by cbv
  have hb : Player.advance ⟨{ repeats := .times 2, extent := .finite 4 }, 0, 3, 0, .playing, true⟩
      6 = some (⟨.trackDone, 5⟩,
        ⟨{ repeats := .times 2, extent := .finite 4 }, 0, 4, 2, .done, true⟩) := by cbv
  have hreach : Reachable ⟨{ repeats := .times 2, extent := .finite 4 }, 0, 0, 0, .playing, true⟩ :=
    ⟨_, _, _, hnew⟩
  have hroom : HasRoom ⟨{ repeats := .times 2, extent := .finite 4 }, 0, 0, 0, .playing, true⟩
      (3 + 6) := by
    constructor
    · intro length hext
      cases hext
      decide
    · intro hunbounded
      cases hunbounded
  exact ⟨_, _, _, _, hreach, hroom, ha, hb, advance_split hreach hroom ha rfl hb⟩

end Player

end Playhead

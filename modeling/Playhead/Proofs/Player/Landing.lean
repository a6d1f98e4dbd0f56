import Playhead.Player.Landing
import Playhead.Proofs.Player.Window

/-!
# Where an advance lands

While a track with a window plays, content time runs on from pass to pass, and what an advance comes
to can be told from it at once: `Player.Lands` compares the content time that the budget reaches
with the failure limit and with all passes, and divides it by the length of the window. The walk
goes pass by pass to the same end (`Underway.lands_of_advance`); along it the counter may stop, and
from then on content time is known to the walk (`InPass`) but not to the player.
-/

namespace Playhead

/-- The failure limit lies within all passes and no later than `time`. -/
def Params.Meets (p : Params) (limit : Millis) (time : Nat) : Prop :=
  p.failAfter = some limit ∧ limit.val ≤ time ∧
    ∀ passes, p.repeats = .times passes → limit.val ≤ passes.val * p.window

theorem Params.meets_of_le_horizon {p : Params} {limit : Millis} {time : Nat}
    (hlimit : p.failAfter = some limit) (hwithin : limit.val ≤ p.horizon)
    (hle : limit.val ≤ time) : p.Meets limit time := by
  refine ⟨hlimit, hle, ?_⟩
  intro passes hrepeats
  rw [horizon, hrepeats] at hwithin
  exact hwithin

/-- A count that is below a number of passes has not been cut off. -/
theorem capPlays_of_lt_passes {n : Nat} {passes : Fin UInt32.size}
    (h : capPlays n < passes.val) : capPlays n = n := by
  have hmax : passes.val ≤ maxPlays := Nat.le_sub_one_of_lt passes.isLt
  rw [capPlays] at h ⊢
  omega

/-- No more passes are told apart than the counter can hold. -/
theorem Params.horizon_le (p : Params) : p.horizon ≤ (maxPlays + 1) * p.window := by
  unfold horizon
  split
  · next passes _ => exact Nat.mul_le_mul_right _ (Nat.le_of_lt passes.isLt)
  · exact Nat.le_refl _

/-- A limit that is met lies within the passes. -/
theorem Params.failing?_eq_some_iff {p : Params} {limit : Millis} {time : Nat} :
    p.failing? time = some limit ↔
      p.failAfter = some limit ∧ limit.val ≤ time ∧ limit.val ≤ p.horizon := by
  simp [failing?, Option.filter_eq_some_iff]

theorem Params.failing?_eq_none_iff {p : Params} {time : Nat} :
    p.failing? time = none ↔
      ∀ limit, p.failAfter = some limit → limit.val ≤ p.horizon → time < limit.val := by
  simp only [failing?, Option.filter_eq_none_iff, decide_eq_true_eq, Nat.le_min, not_and,
    Nat.not_le]
  constructor
  · intro h limit hlimit hwithin
    have := h limit hlimit
    omega
  · intro h limit hlimit hle
    have := h limit hlimit
    omega

namespace Player

variable {p q r : Player} {length : Millis} {budget left spent cost pass into : Nat}
  {report : Report}

/-- What an advance by `budget` of a playing track with a window comes to. -/
inductive Lands (p : Player) (budget : Nat) : Report → Player → Prop where
  | fail {limit : Millis} (hlimit : p.params.failAfter = some limit)
      (hwithin : limit.val ≤ p.params.horizon) (hahead : p.heard < limit.val)
      (hreach : limit.val ≤ p.heard + budget) :
      Lands p budget ⟨.trackFail, limit.val - p.heard⟩
        { p with
          position := p.params.start.val + (limit.val - 1) % p.params.window + 1
          plays := (limit.val - 1) / p.params.window
          lifecycle := .failed }
  /-- A limit that was passed before, as after a seek, is met at once. -/
  | failed {limit : Millis} (hlimit : p.params.failAfter = some limit)
      (hbehind : limit.val ≤ p.heard) :
      Lands p budget ⟨.trackFail, 0⟩ { p with lifecycle := .failed }
  | done {passes : Fin UInt32.size} (hrepeats : p.params.repeats = .times passes)
      (hreach : passes.val * p.params.window ≤ p.heard + budget)
      (hlimit : ∀ limit, p.params.failAfter = some limit →
        passes.val * p.params.window < limit.val) :
      Lands p budget ⟨.trackDone, passes.val * p.params.window - p.heard⟩
        { p with
          position := p.params.start.val + p.params.window
          plays := passes.val
          lifecycle := .done }
  | update (hroom : ∀ passes, p.params.repeats = .times passes →
        p.heard + budget < passes.val * p.params.window)
      (hlimit : ∀ limit, p.params.failAfter = some limit → limit.val ≤ p.params.horizon →
        p.heard + budget < limit.val) :
      Lands p budget ⟨.timeUpdate, budget⟩
        { p with
          position := p.params.start.val + (p.heard + budget) % p.params.window
          plays := capPlays ((p.heard + budget) / p.params.window) }

/-- A track that is played through a window that lies on the time line. -/
structure Underway (length : Millis) (p : Player) : Prop where
  coherent : p.Coherent
  playing : p.lifecycle = .playing
  ready : p.announced = true
  extent_eq : p.params.extent = .finite length
  length_pos : 0 < length.val
  fits : p.params.Fits

/-- Where a walk with `budget` from `p` has come to: `into` a pass, with so many passes behind it
by content time. Unless the walk has only begun, no limit has been met. -/
structure InPass (p : Player) (budget : Nat) (r : Player) (left spent pass into : Nat) : Prop where
  eq : r = { p with position := p.params.start.val + into, plays := capPlays pass }
  into_le : into ≤ p.params.window
  content_eq : pass * p.params.window + into = p.heard + spent
  total_eq : spent + left = budget
  before_limit : (r = p ∧ spent = 0 ∧ pass = p.plays) ∨
    ∀ limit, p.params.failAfter = some limit → limit.val ≤ p.params.horizon →
      p.heard + spent < limit.val

namespace Underway

theorem window_eq (h : p.Underway length) : p.params.window = length.val :=
  Params.window_eq h.extent_eq

theorem window_pos (h : p.Underway length) : 0 < p.params.window := by
  rw [h.window_eq]
  exact h.length_pos

theorem last?_eq (h : p.Underway length) :
    p.params.last? = some (p.params.start.val + p.params.window) := by
  rw [h.fits.last?_eq h.extent_eq, h.window_eq]

theorem last_le (h : p.Underway length) :
    p.params.start.val + p.params.window ≤ lastMillis := by
  rw [h.window_eq]
  exact h.fits length h.extent_eq

theorem not_done (h : p.Underway length) : p.lifecycle ≠ .done := by
  simp [h.playing]

theorem isEmpty_eq (h : p.Underway length) : p.params.extent.isEmpty = false :=
  Params.isEmpty_of_pos h.extent_eq h.length_pos

/-- The present pass lies within the passes that a limit is met in. -/
theorem pass_le_horizon (h : p.Underway length) :
    (p.plays + 1) * p.params.window ≤ p.params.horizon := by
  unfold Params.horizon
  split
  · next passes hrepeats =>
    exact Nat.mul_le_mul_right _ (h.coherent.plays_lt_passes passes hrepeats h.not_done)
  · exact Nat.mul_le_mul_right _ (Nat.succ_le_succ h.coherent.plays_le_maxPlays)

theorem heard_le_horizon (h : p.Underway length) : p.heard ≤ p.params.horizon := by
  refine Nat.le_trans ?_ h.pass_le_horizon
  have hend := h.coherent.position_le_last _ h.last?_eq
  rw [heard, Nat.succ_mul]
  omega

theorem advance_eq_walk (h : p.Underway length) (budget : Nat) :
    p.advance budget = p.walk false budget 0 := by
  have hbuffered := h.coherent.buffering_of_announced h.ready
  rw [← h.coherent.walk_folding_eq h.fits h.isEmpty_eq]
  exact advance_eq_iff.mpr (.walk h.playing (by omega) h.ready h.isEmpty_eq rfl)

end Underway

/-- Before the first turn. -/
theorem Underway.inPass (h : p.Underway length) (budget : Nat) :
    p.InPass budget p budget 0 p.plays (p.position - p.params.start.val) := by
  have hstart := h.coherent.start_le_position
  have hend := h.coherent.position_le_last _ h.last?_eq
  refine ⟨?_, by omega, rfl, Nat.zero_add _, .inl ⟨rfl, rfl, rfl⟩⟩
  rw [Nat.add_sub_cancel' hstart, capPlays_of_le h.coherent.plays_le_maxPlays]

namespace InPass

variable (hr : p.InPass budget r left spent pass into)

include hr in
theorem params_eq : r.params = p.params := by
  rw [hr.eq]

include hr in
theorem position_eq : r.position = p.params.start.val + into := by
  rw [hr.eq]

include hr in
theorem plays_eq : r.plays = capPlays pass := by
  rw [hr.eq]

include hr in
theorem toEnd_eq :
    p.params.start.val + p.params.window - r.position = p.params.window - into := by
  rw [hr.position_eq, Nat.add_sub_add_left]

include hr in
theorem last_eq (h : r.Underway length) {last : Nat} (hlast : r.params.last? = some last) :
    p.params.start.val + p.params.window = last := by
  rw [h.last?_eq, hr.params_eq, Option.some.injEq] at hlast
  exact hlast

include hr in
theorem heard_eq : r.heard = capPlays pass * p.params.window + into := by
  rw [heard, hr.plays_eq, hr.params_eq, hr.position_eq, Nat.add_sub_cancel_left]

include hr in
/-- Until the counter stops, content time is what the player can tell. -/
theorem heard_of_le (hpass : pass ≤ maxPlays) : r.heard = p.heard + spent := by
  rw [hr.heard_eq, capPlays_of_le hpass, hr.content_eq]

include hr in
/-- A limit that can be met at all is met before the counter stops. -/
theorem pass_le_of_limit (h : p.Underway length) {limit : Millis}
    (hlimit : p.params.failAfter = some limit) (hwithin : limit.val ≤ p.params.horizon) :
    pass ≤ maxPlays := by
  rcases hr.before_limit with ⟨-, -, rfl⟩ | hbefore
  · exact h.coherent.plays_le_maxPlays
  · have hlt := hbefore limit hlimit hwithin
    have hle := p.params.horizon_le
    have hcontent := hr.content_eq
    by_contra hover
    have hover : maxPlays + 1 ≤ pass := Nat.not_le.mp hover
    have := Nat.mul_le_mul_right p.params.window hover
    omega

end InPass

/-- A completed pass puts the walk at the start of the next one. -/
theorem InPass.lap {s : Player} (hp : p.Underway length) (h : r.Underway length)
    (hr : p.InPass budget r left spent pass into) (hturn : r.turn false left = .lap cost s) :
    p.InPass budget s (left - cost) (spent + cost) (pass + 1) 0 := by
  have hcontent := hr.content_eq
  have htotal := hr.total_eq
  have hinto := hr.into_le
  cases turn_eq_iff.mp hturn with
  | @lap last laps hfail hlast hreach hmore hlaps =>
    rw [if_neg Bool.false_ne_true] at hlaps
    subst hlaps
    have hheard := heard_lt_of_reach hfail hlast hreach
    obtain rfl := hr.last_eq h hlast
    rw [hr.toEnd_eq] at hreach hheard ⊢
    rw [hr.params_eq] at hheard ⊢
    refine ⟨?_, Nat.zero_le _, ?_, ?_, .inr ?_⟩
    · rw [hr.eq, capPlays_capPlays_add, Nat.add_zero, capPlays_capPlays_add]
      simp only [Nat.add_zero]
    · rw [Nat.add_mul]
      omega
    · omega
    · intro limit hlimit hwithin
      have hlt := hheard limit hlimit
      rw [hr.heard_of_le (hr.pass_le_of_limit hp hlimit hwithin)] at hlt
      omega

/-- Content time tells the pass and how far into it the play head is. -/
theorem div_mod_of_pass {time window : Nat} (htime : time = pass * window + into)
    (hinto : into < window) : time / window = pass ∧ time % window = into := by
  rw [Nat.div_mod_unique (Nat.zero_lt_of_lt hinto)]
  refine ⟨?_, hinto⟩
  rw [htime, Nat.mul_comm, Nat.add_comm]

section Stop

variable (hp : p.Underway length) (h : r.Underway length)
  (hr : p.InPass budget r left spent pass into)

include hp h hr in
/-- A failure of the walk, in content time: the limit is met in this pass. -/
theorem InPass.limit_of_failure {ahead : Nat} (hfail : r.failure? left = some ahead) :
    ∃ limit, p.params.failAfter = some limit ∧ limit.val ≤ p.params.horizon ∧ pass ≤ maxPlays ∧
      limit.val - (p.heard + spent) = ahead ∧ ahead ≤ left ∧ into + ahead ≤ p.params.window := by
  obtain ⟨limit, hlimit, hahead, hle, hend⟩ := failure?_eq_some_iff.mp hfail
  have hend := hend _ h.last?_eq
  have hhorizon := h.pass_le_horizon
  have hinto := hr.into_le
  rw [limit_sub_played] at hahead
  rw [hr.params_eq] at hlimit hend hhorizon
  rw [hr.toEnd_eq] at hend
  have hwithin : limit.val ≤ p.params.horizon := by
    rw [Nat.add_mul, hr.plays_eq] at hhorizon
    rw [hr.heard_eq] at hahead
    omega
  have hpass := hr.pass_le_of_limit hp hlimit hwithin
  rw [hr.heard_of_le hpass] at hahead
  exact ⟨limit, hlimit, hwithin, hpass, hahead, hle, by omega⟩

include hp h hr in
theorem InPass.lands_fail {ahead : Nat} (hfail : r.failure? left = some ahead) :
    p.Lands budget ⟨.trackFail, spent + ahead⟩
      { r with position := capMillis (r.position + ahead), lifecycle := .failed } := by
  obtain ⟨limit, hlimit, hwithin, hpass, hahead, hle, hend⟩ := hr.limit_of_failure hp h hfail
  have hcontent := hr.content_eq
  have htotal := hr.total_eq
  have hroom := hp.last_le
  rw [hr.position_eq, capMillis_of_le (by omega)]
  by_cases hbehind : limit.val ≤ p.heard
  · -- Only before the first turn can the limit lie behind.
    rcases hr.before_limit with ⟨rfl, rfl, -⟩ | hbefore
    · have hzero : ahead = 0 := by omega
      rw [hzero, Nat.add_zero, ← hr.position_eq]
      exact .failed hlimit hbehind
    · have := hbefore limit hlimit hwithin
      omega
  · have hlimit_eq : limit.val = p.heard + spent + ahead ∧ 1 ≤ ahead := by
      rcases hr.before_limit with ⟨-, rfl, -⟩ | hbefore
      · omega
      · have := hbefore limit hlimit hwithin
        omega
    have htime : limit.val - 1 = pass * p.params.window + (into + ahead - 1) := by omega
    obtain ⟨hdiv, hmod⟩ := div_mod_of_pass htime (by omega)
    have hreach : limit.val ≤ p.heard + budget := by omega
    have hlands := Lands.fail hlimit hwithin (by omega) hreach
    have helapsed : limit.val - p.heard = spent + ahead := by omega
    have hposition : p.params.start.val + (into + ahead - 1) + 1 =
        p.params.start.val + into + ahead := by
      omega
    rw [hdiv, hmod, helapsed, hposition] at hlands
    rw [hr.eq, capPlays_of_le hpass]
    exact hlands

include h hr in
theorem InPass.lands_done {last : Nat} (hfail : r.failure? left = none)
    (hlast : r.params.last? = some last) (hreach : last - r.position ≤ left)
    (hover : r.params.repeats.allowsAnother (capPlays (r.plays + 1)) = false) :
    p.Lands budget ⟨.trackDone, spent + (last - r.position)⟩
      { r with position := last, plays := capPlays (r.plays + 1), lifecycle := .done } := by
  have hheard := heard_lt_of_reach hfail hlast hreach
  have hplays := h.coherent.plays_lt_passes
  obtain rfl := hr.last_eq h hlast
  rw [hr.toEnd_eq] at hreach hheard ⊢
  rw [hr.params_eq] at hover hheard hplays
  rw [hr.plays_eq] at hover hplays ⊢
  have hcontent := hr.content_eq
  have htotal := hr.total_eq
  have hinto := hr.into_le
  cases hrepeats : p.params.repeats with
  | forever => simp [hrepeats, Repeat.allowsAnother] at hover
  | times passes =>
    have hlt := hplays passes hrepeats h.not_done
    simp only [hrepeats, Repeat.allowsAnother, decide_eq_false_iff_not, Nat.not_lt] at hover
    -- The counter has not stopped, since passes are missing to it.
    have hpass := capPlays_of_lt_passes hlt
    rw [hpass] at hlt hover ⊢
    have hmax : passes.val ≤ maxPlays := Nat.le_sub_one_of_lt passes.isLt
    have hnext : capPlays (pass + 1) = pass + 1 := capPlays_of_le (Nat.le_trans hlt hmax)
    rw [hnext] at hover ⊢
    have hpasses : passes.val = pass + 1 := Nat.le_antisymm hover hlt
    have htime : passes.val * p.params.window = pass * p.params.window + p.params.window := by
      rw [hpasses, Nat.add_mul, Nat.one_mul]
    have helapsed : spent + (p.params.window - into) =
        passes.val * p.params.window - p.heard := by
      omega
    rw [helapsed, hr.eq, ← hpasses]
    refine .done hrepeats (by omega) ?_
    intro limit hlimit
    have hlt := hheard limit hlimit
    rw [hr.heard_eq, hpass] at hlt
    omega

include hp h hr in
theorem InPass.lands_update (hfail : r.failure? left = none)
    (hroom : ∀ last, r.params.last? = some last → left < last - r.position) :
    p.Lands budget ⟨.timeUpdate, spent + left⟩
      { r with position := capMillis (r.position + left) } := by
  have hheard := heard_lt_of_drift hfail hroom
  have hplays := h.coherent.plays_lt_passes
  have hshort := hroom _ h.last?_eq
  rw [hr.params_eq, hr.toEnd_eq] at hshort
  rw [hr.params_eq] at hheard hplays
  rw [hr.plays_eq] at hplays
  rw [hr.position_eq]
  have hcontent := hr.content_eq
  have htotal := hr.total_eq
  have hinto := hr.into_le
  have hlast := hp.last_le
  have htime : p.heard + budget = pass * p.params.window + (into + left) := by omega
  obtain ⟨hdiv, hmod⟩ := div_mod_of_pass htime (by omega)
  have hlands : p.Lands budget ⟨.timeUpdate, budget⟩ _ := .update (p := p) ?_ ?_
  · rw [hdiv, hmod] at hlands
    rw [htotal, hr.eq, capMillis_of_le (by omega), Nat.add_assoc]
    exact hlands
  · intro passes hrepeats
    have hlt := hplays passes hrepeats h.not_done
    rw [capPlays_of_lt_passes hlt] at hlt
    have := Nat.mul_le_mul_right p.params.window hlt
    rw [Nat.succ_mul] at this
    omega
  · intro limit hlimit hwithin
    have hlt := hheard limit hlimit
    rw [hr.heard_of_le (hr.pass_le_of_limit hp hlimit hwithin)] at hlt
    omega

end Stop

/-- The turn that ends the walk lands where the advance lands. -/
theorem InPass.stop {s : Player} (hp : p.Underway length) (h : r.Underway length)
    (hr : p.InPass budget r left spent pass into)
    (hturn : r.turn false left = .stop report s) :
    p.Lands budget { report with elapsed := spent + report.elapsed } s := by
  cases turn_eq_iff.mp hturn with
  | fail hfail => exact hr.lands_fail hp h hfail
  | done hfail hlast hreach hover => exact hr.lands_done h hfail hlast hreach hover
  | drift hfail hroom => exact hr.lands_update hp h hfail hroom

theorem Underway.lap {s : Player} (h : r.Underway length)
    (hturn : r.turn false left = .lap cost s) : s.Underway length := by
  obtain ⟨hcoherent, hplaying, hready⟩ := h.coherent.lap h.playing hturn
  obtain ⟨-, -, hparams, -⟩ := lap_of_turn hturn
  exact ⟨hcoherent, hplaying, hready.trans h.ready, hparams ▸ h.extent_eq, h.length_pos,
    hparams ▸ h.fits⟩

/-- An advance of a track that is played through its window lands where content time says. -/
theorem Underway.lands_of_advance (h : p.Underway length)
    (hadvance : p.advance budget = some (report, q)) : p.Lands budget report q := by
  rw [h.advance_eq_walk] at hadvance
  refine walk_induction
    (I := fun r left spent => r.Underway length ∧
      ∃ pass into, p.InPass budget r left spent pass into)
    (Q := fun report q => p.Lands budget report q) ?_ ?_ ⟨h, _, _, h.inPass budget⟩ hadvance
  · rintro r s left spent cost ⟨hr, pass, into, hpass⟩ hturn
    exact ⟨hr.lap hturn, _, _, hpass.lap h hr hturn⟩
  · rintro r s left spent report ⟨hr, pass, into, hpass⟩ hturn
    exact hpass.stop h hr hturn

theorem Underway.exists_lands (h : p.Underway length) (budget : Nat) :
    ∃ report q, p.advance budget = some (report, q) ∧ p.Lands budget report q := by
  obtain ⟨report, q, hadvance⟩ := exists_advance h.fits budget
  exact ⟨report, q, hadvance, h.lands_of_advance hadvance⟩

/-- The closed form computes where the advance lands. -/
theorem Underway.landing_eq (h : p.Underway length) (hlands : p.Lands budget report q) :
    p.landing budget = (report, q) := by
  cases hlands with
  | @fail limit hlimit hwithin hahead hreach =>
    have hfailing : p.params.failing? (p.heard + budget) = some limit :=
      Params.failing?_eq_some_iff.mpr ⟨hlimit, hreach, hwithin⟩
    unfold heard at hfailing
    simp only [landing, hfailing]
    exact congrArg (Prod.mk _) (if_pos hahead)
  | @failed limit hlimit hbehind =>
    have hfailing : p.params.failing? (p.heard + budget) = some limit :=
      Params.failing?_eq_some_iff.mpr ⟨hlimit, Nat.le_add_right_of_le hbehind,
        Nat.le_trans hbehind h.heard_le_horizon⟩
    unfold heard at hfailing hbehind
    simp only [landing, hfailing, Nat.sub_eq_zero_of_le hbehind, if_neg (Nat.not_lt.mpr hbehind)]
  | @done passes hrepeats hreach hlimit =>
    have hfailing : p.params.failing? (p.heard + budget) = none := by
      refine Params.failing?_eq_none_iff.mpr fun limit hsome hwithin => ?_
      have hlt := hlimit limit hsome
      rw [Params.horizon, hrepeats] at hwithin
      exact absurd hlt (Nat.not_lt.mpr hwithin)
    have hpassed : p.params.passed? (p.heard + budget) = some passes := by
      simp only [Params.passed?, hrepeats, if_pos hreach]
    unfold heard at hfailing hpassed
    simp only [landing, hfailing, hpassed, heard]
  | update hroom hlimit =>
    have hfailing : p.params.failing? (p.heard + budget) = none :=
      Params.failing?_eq_none_iff.mpr hlimit
    have hpassed : p.params.passed? (p.heard + budget) = none := by
      unfold Params.passed?
      split
      · next passes hrepeats => exact if_neg (Nat.not_le.mpr (hroom passes hrepeats))
      · rfl
    unfold heard at hfailing hpassed
    simp only [landing, hfailing, hpassed, heard]

theorem Underway.advance_eq_landing (h : p.Underway length) (budget : Nat) :
    p.advance budget = some (p.landing budget) := by
  obtain ⟨report, q, hadvance, hlands⟩ := h.exists_lands budget
  rw [hadvance, h.landing_eq hlands]

theorem underway_of_isUnderway (h : p.isUnderway = true) : ∃ length, p.Underway length := by
  unfold isUnderway at h
  cases hext : p.params.extent with
  | unbounded => simp [hext] at h
  | finite length =>
    simp only [hext, Bool.and_eq_true, decide_eq_true_eq, beq_iff_eq, isPlaying] at h
    obtain ⟨⟨⟨⟨⟨hplaying, hready⟩, hbuffered⟩, hplays⟩, hpasses⟩,
      ⟨⟨hlength, hend⟩, hstart⟩, hle⟩ := h
    have hlt : ∀ passes, p.params.repeats = .times passes → p.plays < passes.val := by
      intro passes hrepeats
      simpa [hrepeats] using hpasses
    have hfits := Params.fits_of_le hext hend
    have hlast := hfits.last?_eq hext
    refine ⟨length, ?_, hplaying, hready, hext, hlength, hfits⟩
    exact {
      start_le_position := hstart
      position_le_last := by simpa [hlast] using hle
      position_le_lastMillis := Nat.le_trans hle hend
      plays_le_maxPlays := hplays
      passes_pos := fun passes hrepeats => Nat.zero_lt_of_lt (hlt passes hrepeats)
      plays_le_passes := fun passes hrepeats => Nat.le_of_lt (hlt passes hrepeats)
      plays_lt_passes := fun passes hrepeats _ => hlt passes hrepeats
      position_of_done := by simp [hplaying]
      plays_of_done := by simp [hplaying]
      buffering_le_delay := by simp [hbuffered]
      buffering_of_announced := fun _ => hbuffered
      cause_of_failed := by simp [hplaying] }

/-- Passing over the passes answers what walking through them does. -/
theorem leap_eq_advance (p : Player) (budget : Nat) : p.leap budget = p.advance budget := by
  unfold leap
  split
  · next hunderway =>
    obtain ⟨length, h⟩ := underway_of_isUnderway hunderway
    exact (h.advance_eq_landing budget).symm
  · rfl

/-! ## Windows without an end -/

section Unbounded

variable (h : p.Coherent) (hplaying : p.lifecycle = .playing) (hready : p.announced = true)
  (hext : p.params.extent = .unbounded)

include h hplaying hready hext in
theorem advance_eq_of_turn (hturn : p.turn true budget = .stop report q) :
    p.advance budget = some (report, q) := by
  have hbuffered := h.buffering_of_announced hready
  refine advance_eq_iff.mpr (.walk hplaying (by omega) hready (by simp [hext, Extent.isEmpty]) ?_)
  rw [walk_of_stop hturn, Nat.zero_add]

include hext in
theorem last?_eq_none : p.params.last? = none := by
  simp only [Params.last?, hext]

include h hplaying hready hext in
/-- Content without an end crashes when content time reaches the limit. -/
theorem advance_unbounded_of_reach {limit : Millis} (hlimit : p.params.failAfter = some limit)
    (hreach : limit.val ≤ p.heard + budget) :
    p.advance budget = some (⟨.trackFail, limit.val - p.heard⟩,
      { p with
        position := capMillis (p.position + (limit.val - p.heard))
        lifecycle := .failed }) := by
  refine advance_eq_of_turn h hplaying hready hext (turn_eq_iff.mpr (.fail ?_))
  refine failure?_eq_some_iff.mpr ⟨limit, hlimit, p.limit_sub_played limit, by omega, ?_⟩
  intro last hlast
  rw [last?_eq_none hext] at hlast
  cases hlast

include h hplaying hready hext in
/-- Content without an end plays on while no limit is reached. -/
theorem advance_unbounded_of_lt
    (hroom : ∀ limit, p.params.failAfter = some limit → p.heard + budget < limit.val) :
    p.advance budget = some (⟨.timeUpdate, budget⟩,
      { p with position := capMillis (p.position + budget) }) := by
  refine advance_eq_of_turn h hplaying hready hext (turn_eq_iff.mpr (.drift ?_ ?_))
  · refine failure?_eq_none_iff.mpr ?_
    intro limit hlimit hle
    have hlt := hroom limit hlimit
    rw [limit_sub_played] at hle
    omega
  · intro last hlast
    rw [last?_eq_none hext] at hlast
    cases hlast

end Unbounded

/-! ## Every advance while playing -/

/-- A playing track that is ready, with a window on the time line. -/
theorem Reachable.underway (h : p.Reachable) (hplaying : p.lifecycle = .playing)
    (hready : p.announced = true) (hext : p.params.extent = .finite length)
    (hlength : 1 ≤ length.val) (hfits : p.params.start.val + length.val ≤ lastMillis) :
    p.Underway length :=
  ⟨h.coherent, hplaying, hready, hext, hlength, Params.fits_of_le hext hfits⟩

section Exact

variable (h : p.Underway length)
  (hcount : p.params.repeats = .forever → (p.heard + budget) / p.params.window < UInt32.size)

include h in
/-- Content time never goes beyond the passes that are to be played. -/
theorem Underway.heard_le {passes : Fin UInt32.size}
    (hrepeats : p.params.repeats = .times passes) :
    p.heard ≤ passes.val * p.params.window := by
  have hle := h.heard_le_horizon
  rw [Params.horizon, hrepeats] at hle
  exact hle

include h hcount in
theorem Underway.le_horizon {limit : Millis} (hmeets : p.params.Meets limit (p.heard + budget)) :
    limit.val ≤ p.params.horizon := by
  obtain ⟨-, hle, hpasses⟩ := hmeets
  unfold Params.horizon
  split
  · next passes hrepeats => exact hpasses passes hrepeats
  · next hrepeats =>
    have hlt := (Nat.div_lt_iff_lt_mul h.window_pos).mp (hcount hrepeats)
    exact Nat.le_trans hle (Nat.le_of_lt hlt)

include h hcount in
theorem Underway.advance_of_meets {limit : Millis}
    (hmeets : p.params.Meets limit (p.heard + budget)) :
    p.advance budget = some (⟨.trackFail, limit.val - p.heard⟩,
      if p.heard < limit.val then
        { p with
          position := p.params.start.val + (limit.val - 1) % p.params.window + 1
          plays := (limit.val - 1) / p.params.window
          lifecycle := .failed }
      else { p with lifecycle := .failed }) := by
  have hwithin := h.le_horizon hcount hmeets
  obtain ⟨hlimit, hle, hpasses⟩ := hmeets
  have hsame : ∀ limit', p.params.failAfter = some limit' → limit' = limit := by
    intro limit' hlimit'
    rw [hlimit, Option.some.injEq] at hlimit'
    exact hlimit'.symm
  obtain ⟨report, q, hadvance, hlands⟩ := h.exists_lands budget
  rw [hadvance]
  cases hlands with
  | fail hlimit' hwithin' hahead hreach =>
    cases hsame _ hlimit'
    rw [if_pos hahead]
  | failed hlimit' hbehind =>
    cases hsame _ hlimit'
    rw [if_neg (Nat.not_lt.mpr hbehind), Nat.sub_eq_zero_of_le hbehind]
  | done hrepeats hreach hover =>
    exact absurd (hover limit hlimit) (Nat.not_lt.mpr (hpasses _ hrepeats))
  | update hroom hlimits => exact absurd (hlimits limit hlimit hwithin) (Nat.not_lt.mpr hle)

include h in
theorem Underway.meets_of_behind {limit : Millis} (hlimit : p.params.failAfter = some limit)
    (hbehind : limit.val ≤ p.heard) : p.params.Meets limit (p.heard + budget) :=
  ⟨hlimit, Nat.le_add_right_of_le hbehind,
    fun _ hrepeats => Nat.le_trans hbehind (h.heard_le hrepeats)⟩

include h in
theorem Underway.advance_of_reach (hnone : ∀ limit, ¬p.params.Meets limit (p.heard + budget))
    {passes : Fin UInt32.size} (hrepeats : p.params.repeats = .times passes)
    (hreach : passes.val * p.params.window ≤ p.heard + budget) :
    p.advance budget = some (⟨.trackDone, passes.val * p.params.window - p.heard⟩,
      { p with
        position := p.params.start.val + p.params.window
        plays := passes.val
        lifecycle := .done }) := by
  obtain ⟨report, q, hadvance, hlands⟩ := h.exists_lands budget
  rw [hadvance]
  cases hlands with
  | fail hlimit hwithin hahead hle =>
    exact absurd (Params.meets_of_le_horizon hlimit hwithin hle) (hnone _)
  | failed hlimit hbehind => exact absurd (h.meets_of_behind hlimit hbehind) (hnone _)
  | done hrepeats' =>
    rw [hrepeats, Repeat.times.injEq] at hrepeats'
    rw [hrepeats']
  | update hroom => exact absurd (hroom passes hrepeats) (Nat.not_lt.mpr hreach)

include h hcount in
theorem Underway.advance_of_room (hnone : ∀ limit, ¬p.params.Meets limit (p.heard + budget))
    (hroom : ∀ passes, p.params.repeats = .times passes →
      p.heard + budget < passes.val * p.params.window) :
    p.advance budget = some (⟨.timeUpdate, budget⟩,
      { p with
        position := p.params.start.val + (p.heard + budget) % p.params.window
        plays := (p.heard + budget) / p.params.window }) := by
  have hplays : (p.heard + budget) / p.params.window ≤ maxPlays := by
    cases hrepeats : p.params.repeats with
    | forever => exact Nat.le_sub_one_of_lt (hcount hrepeats)
    | times passes =>
      have hlt := (Nat.div_lt_iff_lt_mul h.window_pos).mpr (hroom passes hrepeats)
      exact Nat.le_of_lt (Nat.lt_of_lt_of_le hlt (Nat.le_sub_one_of_lt passes.isLt))
  obtain ⟨report, q, hadvance, hlands⟩ := h.exists_lands budget
  rw [hadvance]
  cases hlands with
  | fail hlimit hwithin hahead hle =>
    exact absurd (Params.meets_of_le_horizon hlimit hwithin hle) (hnone _)
  | failed hlimit hbehind => exact absurd (h.meets_of_behind hlimit hbehind) (hnone _)
  | done hrepeats hreach => exact absurd (hroom _ hrepeats) (Nat.not_lt.mpr hreach)
  | update => rw [capPlays_of_le hplays]

end Exact

/-- What an advance of a playing track comes to, told by the content time `time` that was played:
in a window with an end the track crashes at a limit that lies within all passes, or else is done
at the end of all passes, or else is as far as content time is; in one without an end it crashes
at a limit or moves on. -/
theorem advance_of_playing (hp : p.Reachable) (hplaying : p.lifecycle = .playing)
    (hready : p.announced = true) (budget : Nat) :
    (∀ length, p.params.extent = .finite length → 1 ≤ length.val →
      p.params.start.val + length.val ≤ lastMillis →
      ∀ time, time = p.plays * length.val + (p.position - p.params.start.val) →
      (p.params.repeats = .forever → (time + budget) / length.val < UInt32.size) →
      (∀ limit, p.params.Meets limit (time + budget) →
        p.advance budget = some (⟨.trackFail, limit.val - time⟩,
          if time < limit.val then
            { p with
              position := p.params.start.val + (limit.val - 1) % length.val + 1
              plays := (limit.val - 1) / length.val
              lifecycle := .failed }
          else { p with lifecycle := .failed })) ∧
      ((∀ limit, ¬p.params.Meets limit (time + budget)) →
        (∀ passes, p.params.repeats = .times passes → passes.val * length.val ≤ time + budget →
          time ≤ passes.val * length.val ∧
          p.advance budget = some (⟨.trackDone, passes.val * length.val - time⟩,
            { p with
              position := p.params.start.val + length.val
              plays := passes.val
              lifecycle := .done })) ∧
        ((∀ passes, p.params.repeats = .times passes →
            time + budget < passes.val * length.val) →
          p.advance budget = some (⟨.timeUpdate, budget⟩,
            { p with
              position := p.params.start.val + (time + budget) % length.val
              plays := (time + budget) / length.val })))) ∧
    (p.params.extent = .unbounded →
      ∀ time, time = p.position - p.params.start.val →
      (∀ limit, p.params.failAfter = some limit → limit.val ≤ time + budget →
        p.advance budget = some (⟨.trackFail, limit.val - time⟩,
          { p with
            position := capMillis (p.position + (limit.val - time))
            lifecycle := .failed })) ∧
      ((∀ limit, p.params.failAfter = some limit → time + budget < limit.val) →
        p.advance budget = some (⟨.timeUpdate, budget⟩,
          { p with position := capMillis (p.position + budget) }))) := by
  refine ⟨?_, ?_⟩
  · intro length hext hlength hfits time htime hcount
    have h := hp.underway hplaying hready hext hlength hfits
    have hheard : p.heard = time := by rw [htime, heard, h.window_eq]
    rw [← h.window_eq, ← hheard] at hcount ⊢
    refine ⟨fun limit hmeets => h.advance_of_meets hcount hmeets, fun hnone => ⟨?_, ?_⟩⟩
    · intro passes hrepeats hreach
      exact ⟨h.heard_le hrepeats, h.advance_of_reach hnone hrepeats hreach⟩
    · exact h.advance_of_room hcount hnone
  · intro hext time htime
    have hheard : p.heard = time := by
      rw [htime, heard, Params.window, hext, Nat.mul_zero, Nat.zero_add]
    rw [← hheard]
    refine ⟨?_, ?_⟩
    · intro limit hlimit hreach
      exact advance_unbounded_of_reach hp.coherent hplaying hready hext hlimit hreach
    · exact advance_unbounded_of_lt hp.coherent hplaying hready hext

/-- Six of twelve milliseconds have been played of a track that crashes after nine. -/
theorem advance_of_playing_until_crash :
    ∃ p q : Player, p.Reachable ∧ p.lifecycle = .playing ∧ p.announced = true ∧ p.plays = 1 ∧
      p.position = 12 ∧ p.params.Meets 9 (6 + 100) ∧
      p.advance 100 = some (⟨.trackFail, 3⟩, q) ∧ q.plays = 2 ∧ q.position = 11 := by
  have hrun :
      (new { repeats := .times 3, failAfter := some 9, start := 10, extent := .finite 4 }).run
        [.command .play, .advance 0, .advance 6] =
      some ([.acted true, .reported ⟨.trackReady, 0⟩, .reported ⟨.timeUpdate, 6⟩],
        ⟨{ repeats := .times 3, failAfter := some 9, start := 10, extent := .finite 4 },
          0, 12, 1, .playing, true⟩) := by cbv
  have hreachable : Reachable _ := ⟨_, _, _, hrun⟩
  have hmeets : Params.Meets
      { repeats := .times 3, failAfter := some 9, start := 10, extent := .finite 4 } 9
      (6 + 100) := by
    refine ⟨rfl, by decide, ?_⟩
    intro passes hrepeats
    cases hrepeats
    decide
  obtain ⟨hcrash, -⟩ := (advance_of_playing hreachable rfl rfl 100).1 4 rfl (by decide) (by decide)
    6 rfl (by simp)
  exact ⟨_, _, hreachable, rfl, rfl, rfl, rfl, hmeets, hcrash 9 hmeets, rfl, rfl⟩

end Player

end Playhead

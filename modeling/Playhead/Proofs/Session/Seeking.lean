import Playhead.Proofs.Player.Seeking
import Playhead.Proofs.Session.Refinement

/-!
# Moving the play head from where it is

A session moves its play head by a distance, and sends it there as an offset from the start of the
window. An offset is a signed word and does not reach as far as the time line does
(`Params.offsetReach`). Up to there the move is the one that was asked for; from a place behind it
the play head is first drawn back (`Player.MovesBy`, `run_new_seekBy`).
-/

namespace Playhead

namespace Params

variable {p : Params} {x : Nat} {delta : Int}

/-- The last place to which an offset can lead. -/
def offsetReach (p : Params) : Int := p.start.val + greatestSigned

/-- Where a play head at `x` comes to when it is moved by `delta`: it is drawn back to what offsets
reach, before the move and after it. -/
def moved (p : Params) (x : Nat) (delta : Int) : Int :=
  p.clamp (min (min (x : Int) p.offsetReach + delta) p.offsetReach)

/-- A move comes to where it was asked to, clamped into the window, if offsets reach that far and as
far as the play head was; or if it was asked to the start. -/
theorem moved_eq_clamp_iff (hdelta : fitsSigned delta = true) (hstart : p.start.val ≤ x)
    (hend : x ≤ p.farthest) :
    p.moved x delta = p.clamp (x + delta) ↔
      p.clamp (x + delta) ≤ p.offsetReach ∧
        ((x : Int) ≤ p.offsetReach ∨ p.clamp (x + delta) = p.start.val) := by
  simp only [fitsSigned, Bool.and_eq_true, decide_eq_true_eq] at hdelta
  unfold moved clamp offsetReach
  unfold leastSigned greatestSigned at *
  omega

/-- A move forward never goes back, unless it starts behind what offsets reach: then it always
does. -/
theorem le_moved_iff (hdelta : 0 ≤ delta) (hstart : p.start.val ≤ x) (hend : x ≤ p.farthest) :
    (x : Int) ≤ p.moved x delta ↔ (x : Int) ≤ p.offsetReach := by
  unfold moved clamp offsetReach greatestSigned
  omega

theorem moved_le (hdelta : delta ≤ 0) (hstart : p.start.val ≤ x) : p.moved x delta ≤ x := by
  unfold moved clamp offsetReach greatestSigned
  omega

end Params

/-! ## Players under steps -/

namespace Runner

variable {r r' : Runner} {index : Nat} {label : String} {entries : List Entry}

theorem Slices.coherent (h : Slices index label r entries r') (hr : r.player.Coherent) :
    r'.player.Coherent := by
  induction h with
  | nil => exact hr
  | cons hadvance _ ih =>
    obtain ⟨q, hq, -, rfl⟩ := advance_eq_ok_iff.mp hadvance
    exact ih (hr.advance hq)

theorem coherent_of_apply {step : Step} {result : Except Unmet (List Entry)}
    (h : r.player.Coherent) (happly : r.apply index step = .ok (r', result)) :
    r'.player.Coherent := by
  cases applies_of_apply happly with
  | @command c player effect hperform =>
    have hplayer := h.perform c
    rw [hperform] at hplayer
    exact hplayer
  | advance hslices => exact hslices.coherent h
  | run hchunks => exact hchunks.slices.coherent h
  | pass => exact h
  | fail => exact h

theorem coherent_of_follow {steps : List Step} (h : r.player.Coherent)
    (hfollow : r.follow index steps = .ok (r', entries)) : r'.player.Coherent := by
  induction steps generalizing r index entries with
  | nil =>
    cases hfollow
    exact h
  | cons step rest ih =>
    obtain ⟨q, result, more, happly, hmore, rfl⟩ := follow_cons_eq_ok_iff.mp hfollow
    exact ih (coherent_of_apply h happly) hmore

theorem coherent_ofScenario {scenario : Scenario} (h : Runner.ofScenario scenario = .ok r) :
    r.player.Coherent := by
  unfold ofScenario at h
  cases hcontent : scenario.content.resolve with
  | error flaw =>
    rw [hcontent] at h
    cases h
  | ok content =>
    rw [hcontent] at h
    cases h
    exact Player.coherent_new _

end Runner

/-! ## Moves -/

namespace Player

variable {p : Player} {delta : Int}

/-- What a move by `delta` makes of the play head, and whether it tells of an effect. -/
structure MovesBy (p : Player) (delta : Int) (q : Player) (effect : Bool) : Prop where
  /-- How far the play head is into its window is a number. -/
  start_le_position : p.params.start.val ≤ p.position
  effect_iff : effect = true ↔ q.position ≠ p.position
  position_eq : (q.position : Int) = p.params.moved p.position delta
  asked_iff : (q.position : Int) = p.params.clamp (p.position + delta) ↔
    p.params.clamp (p.position + delta) ≤ p.params.offsetReach ∧
      ((p.position : Int) ≤ p.params.offsetReach ∨
        p.params.clamp (p.position + delta) = p.params.start.val)
  forward_iff : 0 ≤ delta →
    (p.position ≤ q.position ↔ (p.position : Int) ≤ p.params.offsetReach)
  backward : delta ≤ 0 → q.position ≤ p.position

theorem Coherent.movesBy {q : Player} {effect : Bool} (h : p.Coherent)
    (hdelta : fitsSigned delta = true) (heffect : effect = true ↔ q.position ≠ p.position)
    (hposition : (q.position : Int) = p.params.moved p.position delta) :
    p.MovesBy delta q effect := by
  have hstart := h.start_le_position
  have hend := h.position_le_farthest
  refine ⟨hstart, heffect, hposition, ?_, ?_, ?_⟩
  · rw [hposition]
    exact Params.moved_eq_clamp_iff hdelta hstart hend
  · intro hforward
    rw [← Int.ofNat_le, hposition]
    exact Params.le_moved_iff hforward hstart hend
  · intro hback
    rw [← Int.ofNat_le, hposition]
    exact Params.moved_le hback hstart

end Player

namespace Session

variable {s t : Session} {c : Course} {delta : Int}

theorem Follows.coherent (h : s.Follows c) : s.runner.player.Coherent := by
  obtain ⟨fresh, entries, hfresh, hfollow, -⟩ := h.exists_follow
  exact Runner.coherent_of_follow (Runner.coherent_ofScenario hfresh) hfollow

/-- A command reaches the player as it is, and the session tells what the player told. -/
theorem LogFits.exists_apply_command (h : s.LogFits) (c : Command) :
    ∃ t, s.apply (.command c) = .ok (t, (s.runner.player.perform c).2) ∧
      t.runner.player = (s.runner.player.perform c).1 := by
  rw [apply_eq h, Runner.apply]
  obtain ⟨player, effect⟩ := s.runner.player.perform c
  simp only [map_ok, effective, List.any_cons, List.any_nil, Bool.or_false]
  exact ⟨_, rfl, rfl⟩

theorem LogFits.exists_seekBy (h : s.LogFits) (delta : Int) :
    ∃ t, s.seekBy delta = .ok (t, (s.runner.player.seek (s.offsetBy delta)).2) ∧
      t.runner.player = (s.runner.player.seek (s.offsetBy delta)).1 :=
  h.exists_apply_command (.seek (s.offsetBy delta))

/-- Sending the play head to the offset that is reckoned for it moves it. -/
theorem seekTarget_offsetBy (h : s.runner.player.Coherent) (hdelta : fitsSigned delta = true) :
    (s.runner.player.seekTarget (s.offsetBy delta) : Int) =
      s.runner.player.params.moved s.runner.player.position delta := by
  have hstart := h.start_le_position
  have hoffset : (s.runner.player.params.start.val : Int) + s.offsetBy delta =
      min (min (s.runner.player.position : Int) s.runner.player.params.offsetReach + delta)
        s.runner.player.params.offsetReach := by
    simp only [fitsSigned, Bool.and_eq_true, decide_eq_true_eq] at hdelta
    unfold offsetBy clampSigned Params.offsetReach
    unfold leastSigned greatestSigned at *
    omega
  rw [Player.seekTarget_eq_clamp, hoffset, Params.moved]

/-- However a session was driven, moving the play head of a track that has not crashed is always
answered, never takes it out of its window, and tells whether it went anywhere. It goes where it was
asked to as far as offsets reach; a play head that time has carried further than that is drawn back
by every move, those forward included. -/
theorem run_new_seekBy {scenario : Scenario} {ui : UiSettings} {inputs : List Input}
    (hnew : Session.new scenario ui = .ok s)
    (hrun : s.run { basis := scenario } inputs = .ok (t, c))
    (hactive : t.runner.player.lifecycle ≠ .failed) (hdelta : fitsSigned delta = true) :
    ∃ u effect, t.seekBy delta = .ok (u, effect) ∧
      t.runner.player.MovesBy delta u.runner.player effect := by
  have h : t.Follows c := (follows_new hnew).run hrun
  obtain ⟨u, hseekBy, hplayer⟩ := h.logFits.exists_seekBy delta
  refine ⟨u, _, hseekBy, ?_⟩
  rw [hplayer]
  have hseek := Player.relocates_seek hactive (t.offsetBy delta)
  refine h.coherent.movesBy hdelta hseek.effect_iff ?_
  rw [Player.position_seek _ hactive, seekTarget_offsetBy h.coherent hdelta]

/-- Live content from its sixth millisecond on. -/
def liveLate : Scenario := { track := { offset := .ofNat 5 } }

/-- The play head is as far as an offset reaches, and is moved back by more than it is into its
window. -/
theorem run_new_seekBy_to_start :
    let inputs : List Input :=
      [.act .togglePlay, .act (.step 0), .act (.step 9223372036854775807)]
    ∃ s t c u, Session.new liveLate {} = .ok s ∧ s.run { basis := liveLate } inputs = .ok (t, c) ∧
      t.runner.player.lifecycle = .playing ∧ t.runner.player.position = 9223372036854775812 ∧
      t.seekBy (-9223372036854775808) = .ok (u, true) ∧
      t.runner.player.MovesBy (-9223372036854775808) u.runner.player true ∧
      u.runner.player.position = 5 := by
  intro inputs
  have hcontent : liveLate.content.resolve = .ok {} := by rfl
  have hnew := new_eq (Scenario.ofScenario_of_resolve hcontent) {}
  obtain ⟨s, hs⟩ : ∃ s, Session.new liveLate {} = .ok s := ⟨_, hnew⟩
  have hplayer : (s.run { basis := liveLate } inputs).map (·.1.runner.player) =
      .ok ⟨{ start := 5 }, 0, 9223372036854775812, 0, .playing, true⟩ := by
    rw [hnew] at hs
    cases hs
    cbv
  obtain ⟨⟨t, c⟩, hrun, hp⟩ := map_eq_ok_iff.mp hplayer
  simp only at hp
  have hactive : t.runner.player.lifecycle ≠ .failed := by
    rw [hp]
    decide
  have hdelta : fitsSigned (-9223372036854775808) = true := by decide
  obtain ⟨u, effect, hseek, hmoves⟩ := run_new_seekBy hs hrun hactive hdelta
  have hposition : u.runner.player.position = 5 := by
    have hmoved := hmoves.position_eq
    rw [hp] at hmoved
    exact Int.ofNat.inj (hmoved.trans (by decide))
  have heffect : effect = true := hmoves.effect_iff.mpr (by simp [hp, hposition])
  rw [heffect] at hseek hmoves
  exact ⟨s, t, c, u, hs, hrun, by rw [hp], by rw [hp], hseek, hmoves, hposition⟩

/-- Two milliseconds behind what offsets reach, a move back by a hundred milliseconds goes back two
more, and a move forward by one goes back as well. -/
theorem run_new_seekBy_behind_offsetReach :
    let inputs : List Input :=
      [.act .togglePlay, .act (.step 0), .act (.step 9223372036854775809)]
    ∃ s t c u v, Session.new {} {} = .ok s ∧ s.run { basis := {} } inputs = .ok (t, c) ∧
      t.runner.player.lifecycle = .playing ∧ t.runner.player.position = 9223372036854775809 ∧
      t.seekBy (-100) = .ok (u, true) ∧ u.runner.player.position = 9223372036854775707 ∧
      t.seekBy 1 = .ok (v, true) ∧ v.runner.player.position = 9223372036854775807 := by
  intro inputs
  have hcontent : ({} : Scenario).content.resolve = .ok {} := by rfl
  have hnew := new_eq (Scenario.ofScenario_of_resolve hcontent) {}
  obtain ⟨s, hs⟩ : ∃ s, Session.new {} {} = .ok s := ⟨_, hnew⟩
  have hplayer : (s.run { basis := {} } inputs).map (·.1.runner.player) =
      .ok ⟨{}, 0, 9223372036854775809, 0, .playing, true⟩ := by
    rw [hnew] at hs
    cases hs
    cbv
  obtain ⟨⟨t, c⟩, hrun, hp⟩ := map_eq_ok_iff.mp hplayer
  simp only at hp
  have hfits : t.LogFits := ((follows_new hs).run hrun).logFits
  have hback : t.runner.player.seek (t.offsetBy (-100)) =
      (⟨{}, 0, 9223372036854775707, 0, .playing, true⟩, true) := by
    rw [offsetBy, hp]
    rfl
  have hforward : t.runner.player.seek (t.offsetBy 1) =
      (⟨{}, 0, 9223372036854775807, 0, .playing, true⟩, true) := by
    rw [offsetBy, hp]
    rfl
  obtain ⟨u, hu, hq⟩ := hfits.exists_seekBy (-100)
  obtain ⟨v, hv, hr⟩ := hfits.exists_seekBy 1
  rw [hback] at hu hq
  rw [hforward] at hv hr
  exact ⟨s, t, c, u, v, hs, hrun, by rw [hp], by rw [hp], hu, by rw [hq], hv, by rw [hr]⟩

end Session

end Playhead

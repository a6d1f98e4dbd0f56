import Playhead.Proofs.Player.Endless
import Playhead.Proofs.Scenario.Steps
import Playhead.Soak

/-!
# Answers

A player whose track does not stall is responsive, and whatever drives one comes to an end: the
replay of a valid scenario does (`Scenario.replay_ne_endless`), and a soak does as long as its draws
do (`Soak.run_ne_endless`). A track stalls only if it has live content, begins at the last
instant of the time line, asks for a duration and is repeated for ever (`Track.stalls_params_iff`).
-/

namespace Playhead

/-! ## Runners -/

theorem Step.chunk_pos_of_flaw? {s : Step} {index : Nat} (h : s.flaw? index = none) :
    ∀ chunk budget, s = .run chunk budget → 1 ≤ chunk := by
  rintro (_ | chunk) budget rfl
  · cases h
  · exact Nat.succ_pos chunk

theorem Step.chunk_pos_of_firstFlaw? {steps : List Step} {index : Nat}
    (h : Step.firstFlaw? index steps = none) :
    ∀ chunk budget, .run chunk budget ∈ steps → 1 ≤ chunk := by
  induction steps generalizing index with
  | nil => nofun
  | cons s rest ih =>
    rw [Step.firstFlaw?, Option.or_eq_none_iff] at h
    intro chunk budget hmem
    rcases List.mem_cons.mp hmem with rfl | hrest
    · exact Step.chunk_pos_of_flaw? h.1 chunk budget rfl
    · exact ih h.2 chunk budget hrest

namespace Runner

variable {r s r' : Runner} {chunk left budget times index : Nat} {label : String}
  {report : Report} {entries : List Entry} {fault : Fault}

theorem responsive_of_advance (h : r.player.Responsive)
    (hadvance : r.advance budget = .ok (report, s)) : s.player.Responsive := by
  obtain ⟨q, hq, -, rfl⟩ := advance_eq_ok_iff.mp hadvance
  exact h.act (Player.act_advance_eq_some_iff.mpr ⟨report, hq, rfl⟩)

theorem advance_ne_endless (h : r.player.Responsive) (budget : Nat) :
    r.advance budget ≠ .error .endless := by
  intro hendless
  obtain ⟨report, q, hq, -⟩ := h.exists_advance budget
  rcases advance_eq_error_iff.mp hendless with ⟨-, hnone⟩ | ⟨hfault, -⟩
  · cases hnone.symm.trans hq
  · cases hfault

theorem not_stuckWithin (h : r.player.Responsive) : ¬StuckWithin .endless budget times r := by
  intro hstuck
  induction hstuck with
  | here hfault => exact advance_ne_endless h budget hfault
  | later hadvance _ ih => exact ih (responsive_of_advance h hadvance)

theorem not_stuck (h : r.player.Responsive) : ¬Stuck .endless chunk left r := by
  intro hstuck
  induction hstuck with
  | here _ _ hfault => exact advance_ne_endless h _ hfault
  | later _ _ hadvance _ ih => exact ih (responsive_of_advance h hadvance)

theorem not_breaks (h : r.player.Responsive) (s : Step) : ¬Breaks .endless r s := by
  rintro (hstuck | hstuck)
  · exact not_stuckWithin h hstuck
  · exact not_stuck h hstuck

theorem Slices.responsive (hslices : Slices index label r entries r') (h : r.player.Responsive) :
    r'.player.Responsive := by
  induction hslices with
  | nil => exact h
  | cons hadvance _ ih => exact ih (responsive_of_advance h hadvance)

theorem responsive_of_apply {s : Step} {result : Except Unmet (List Entry)}
    (h : r.player.Responsive) (happly : r.apply index s = .ok (r', result)) :
    r'.player.Responsive := by
  cases applies_of_apply happly with
  | @command c player effect hperform =>
    have hact := r.player.act_command c
    rw [hperform] at hact
    exact h.act hact
  | advance hslices => exact hslices.responsive h
  | run hchunks => exact hchunks.slices.responsive h
  | pass => exact h
  | fail => exact h

/-- Steps never go on for ever with a player that is responsive. -/
theorem not_halts {steps : List Step} (h : r.player.Responsive) :
    ¬Halts .endless index r steps := by
  intro hhalts
  induction hhalts with
  | here hbreaks => exact not_breaks h _ hbreaks
  | later happly _ ih => exact ih (responsive_of_apply h happly)

theorem applyAll_ne_endless {steps : List Step} (h : r.player.Responsive)
    (hsteps : ∀ chunk budget, .run chunk budget ∈ steps → 1 ≤ chunk) :
    r.applyAll index steps ≠ .error .endless := fun hendless =>
  not_halts h ((follow_eq_error_iff hsteps).mp (follow_of_applyAll_error hendless))

theorem apply_advance_of_none (h : r.player.advance budget = none) :
    r.apply index (.advance budget (times + 1)) = .error .endless := by
  have hadvance : r.advance budget = .error .endless :=
    advance_eq_error_iff.mpr (.inl ⟨rfl, h⟩)
  simp only [apply, advanceTimes, hadvance, map_error]

theorem applyAll_cons_of_error {s : Step} {rest : List Step}
    (h : r.apply index s = .error fault) : r.applyAll index (s :: rest) = .error fault := by
  simp only [applyAll, h]

theorem applyAll_cons_of_ok {s : Step} {rest : List Step}
    (h : r.apply index s = .ok (r', .ok entries))
    (hrest : r'.applyAll (index + 1) rest = .error fault) :
    r.applyAll index (s :: rest) = .error fault := by
  simp only [applyAll, h, hrest]

end Runner

/-! ## Scenarios -/

theorem Scenario.firstFlaw?_of_validate {s : Scenario} (h : s.validate = .ok ()) :
    Step.firstFlaw? 0 s.steps = none := by
  unfold validate at h
  cases hresolve : s.content.resolve with
  | error flaw =>
    rw [hresolve] at h
    cases h
  | ok content =>
    rw [hresolve] at h
    cases hflaw : Step.firstFlaw? 0 s.steps with
    | none => rfl
    | some flaw =>
      simp only [hflaw] at h
      cases h

theorem Scenario.exists_resolve_of_validate {s : Scenario} (h : s.validate = .ok ()) :
    ∃ c, s.content.resolve = .ok c := by
  unfold validate at h
  cases hresolve : s.content.resolve with
  | error flaw =>
    rw [hresolve] at h
    cases h
  | ok content => exact ⟨content, rfl⟩

theorem Scenario.ofScenario_of_resolve {s : Scenario} {c : Content}
    (h : s.content.resolve = .ok c) :
    Runner.ofScenario s = .ok { player := .ofTrack s.track c } := by
  unfold Runner.ofScenario
  rw [h]
  rfl

/-- A replay has no answer just if its steps have none. -/
theorem Scenario.replay_eq_error_iff {s : Scenario} {r : Runner} {fault : Fault}
    (hfresh : Runner.ofScenario s = .ok r) :
    s.replay = .error fault ↔ r.applyAll 0 s.steps = .error fault := by
  rw [replay, hfresh]
  dsimp only
  cases r.applyAll 0 s.steps with
  | error fault' => simp
  | ok answer =>
    obtain ⟨q, result⟩ := answer
    cases result <;> exact iff_of_false nofun nofun

theorem Scenario.replay_ne_endless {s : Scenario} {c : Content} (hvalid : s.validate = .ok ())
    (hcontent : s.content.resolve = .ok c) (hstalls : ¬(s.track.params c).Stalls) :
    s.replay ≠ .error .endless := by
  have hr : (Player.ofTrack s.track c).Responsive := Player.responsive_new hstalls
  rw [ne_eq, replay_eq_error_iff (ofScenario_of_resolve hcontent)]
  exact Runner.applyAll_ne_endless hr (Step.chunk_pos_of_firstFlaw? (firstFlaw?_of_validate hvalid))

/-! ## Soaks -/

namespace Soak

variable {σ : Type} {next : σ → UInt32 × σ} {span : Nat} {fresh : Player} {s s' : State σ}

/-- No draw of an action goes on for ever. -/
def Draws (next : σ → UInt32 × σ) (span : Nat) : Prop :=
  ∀ source, draw next span source ≠ .error .endless

theorem responsive_restart (hfresh : fresh.Responsive) (h : s.player.Responsive) :
    (restart next fresh s).player.Responsive := by
  unfold restart
  split
  · dsimp only
    split
    · exact hfresh
    · exact h
  · exact h

theorem count_ne_endless (r : Report) (reply : Reply) : r.count reply ≠ .error .endless := by
  cases reply with
  | acted effect => nofun
  | reported report =>
    rw [Report.count, ne_eq, map_eq_error_iff, addMillis_eq_error_iff]
    exact fun h => nomatch h.1

/-- What is left by an action that passes its checks is what the player makes of it. -/
theorem act_of_perform {a : Action} (h : perform a s = .ok (.ok s')) :
    ∃ reply, s.player.act a = some (reply, s'.player) := by
  obtain ⟨⟨reply, q⟩, hact, hrest⟩ := bind_eq_ok_iff.mp h
  obtain ⟨report, -, hchecks⟩ := bind_eq_ok_iff.mp hrest
  dsimp only at hchecks
  split at hchecks
  · cases hchecks
  · cases hchecks
    exact ⟨reply, orEndless_eq_ok_iff.mp hact⟩

theorem perform_ne_endless (h : s.player.Responsive) (a : Action) :
    perform a s ≠ .error .endless := by
  obtain ⟨reply, q, hact, -⟩ := h.exists_act a
  intro hendless
  rcases bind_eq_error_iff.mp hendless with hnone | ⟨⟨reply', q'⟩, -, hrest⟩
  · cases hact.symm.trans (orEndless_eq_error_iff.mp hnone).2
  · rcases bind_eq_error_iff.mp hrest with hcount | ⟨report, -, hchecks⟩
    · exact count_ne_endless _ _ hcount
    · dsimp only at hchecks
      split at hchecks <;> cases hchecks

theorem turn_ne_endless (hdraws : Draws next span) (hfresh : fresh.Responsive)
    (h : s.player.Responsive) : turn next fresh span s ≠ .error .endless := by
  -- The draw takes words from the source only, so the player is the one after the restart.
  have hrestart : (restart next fresh s).player.Responsive := responsive_restart hfresh h
  intro hendless
  rcases bind_eq_error_iff.mp hendless with hdraw | ⟨⟨a, source⟩, -, hperform⟩
  · exact hdraws _ hdraw
  · exact perform_ne_endless (s := { restart next fresh s with source }) hrestart a hperform

theorem responsive_of_turn (hfresh : fresh.Responsive) (h : s.player.Responsive)
    (hturn : turn next fresh span s = .ok (.ok s')) : s'.player.Responsive := by
  have hrestart : (restart next fresh s).player.Responsive := responsive_restart hfresh h
  obtain ⟨⟨a, source⟩, -, hperform⟩ := bind_eq_ok_iff.mp hturn
  obtain ⟨reply, hact⟩ := act_of_perform hperform
  exact hrestart.act hact

theorem turns_ne_endless (hdraws : Draws next span) (hfresh : fresh.Responsive)
    (h : s.player.Responsive) (count operation : Nat) :
    turns next fresh span count operation s ≠ .error .endless := by
  induction count generalizing operation s with
  | zero => nofun
  | succ count ih =>
    rw [turns]
    cases hturn : turn next fresh span s with
    | error fault =>
      intro hendless
      cases hendless
      exact turn_ne_endless hdraws hfresh h hturn
    | ok result =>
      cases result with
      | error violation => nofun
      | ok s' => exact ih (responsive_of_turn hfresh h hturn) _

theorem run_ne_endless {scenario : Scenario} {c : Content}
    (hcontent : scenario.content.resolve = .ok c) (hstalls : ¬(scenario.track.params c).Stalls)
    (hdraws : Draws next (Soak.span (Player.ofTrack scenario.track c).params))
    (operations : Nat) (source : σ) : run next scenario operations source ≠ .error .endless := by
  have hfresh : (Player.ofTrack scenario.track c).Responsive := Player.responsive_new hstalls
  rw [run, hcontent]
  dsimp only
  rw [ne_eq, map_eq_error_iff]
  exact turns_ne_endless hdraws hfresh hfresh operations 0

end Soak

/-! ## Tracks that stall -/

theorem Track.repeats_eq_forever_iff (t : Track) : t.repeats = .forever ↔ t.repeatCount < 0 := by
  unfold repeats
  split <;> simp <;> omega

theorem Track.window_isEmpty_of_finite {t : Track} {c : Content} {length : Millis}
    (hlength : c.length = .finite length) (hstart : (t.window c).1.val = lastMillis) :
    (t.window c).2.isEmpty = true := by
  have hle := length.val_le
  simp only [window, hlength, Millis.val_ofNat, capMillis] at hstart
  simp only [window, hlength, Extent.isEmpty, Millis.val_ofNat, capMillis, beq_iff_eq]
  split <;> omega

theorem Track.stalls_params_iff (t : Track) (c : Content) :
    (t.params c).Stalls ↔
      c.length = .unbounded ∧ t.offset.val = lastMillis ∧ 0 < t.duration.val ∧ t.repeatCount < 0 ∧
        ∀ limit, c.failAfter = some limit → maxPlays * t.duration.val < limit.val := by
  cases hlength : c.length with
  | finite length =>
    -- The window would begin at the last instant and not be empty.
    refine iff_of_false (fun h => ?_) (fun h => nomatch h.1)
    obtain ⟨-, -, -, hstart⟩ := h.cutOff
    have hempty := window_isEmpty_of_finite hlength hstart
    exact Bool.false_ne_true (h.isEmpty_eq.symm.trans hempty)
  | unbounded =>
    by_cases hduration : 0 < t.duration.val
    · have hext : (t.params c).extent = .finite t.duration := by
        simp only [params, window, hlength, if_pos hduration]
      have hstart : (t.params c).start = t.offset := by simp only [params, window, hlength]
      have hwindow := Params.window_eq hext
      rw [← t.repeats_eq_forever_iff]
      constructor
      · intro h
        obtain ⟨-, -, -, hcut⟩ := h.cutOff
        exact ⟨rfl, hstart ▸ hcut, hduration, h.repeats_eq, hwindow ▸ h.limit_lt⟩
      · rintro ⟨-, hoffset, -, hrepeats, hlimit⟩
        exact ⟨hrepeats, ⟨_, hext, hduration, hstart ▸ hoffset⟩, hwindow.symm ▸ hlimit⟩
    · refine iff_of_false (fun h => ?_) (fun h => hduration h.2.2.1)
      obtain ⟨length, hext, -⟩ := h.cutOff
      simp [params, window, hlength, hduration] at hext

/-- Live content played for ever from the last instant on, for one millisecond at a time. -/
def Track.lastInstant : Track :=
  { offset := .ofNat lastMillis, duration := .ofNat 1, repeatCount := -1 }

/-- A scenario that plays this track. -/
def Scenario.lastInstant : Scenario :=
  { track := .lastInstant, steps := [.command .play, .advance 0 1, .advance 1 1] }

/-- A scenario that plays a second of live content for ever, from an earlier instant on. -/
def Scenario.liveSecond : Scenario :=
  { track := { offset := .ofNat 20, duration := .ofNat 1000, repeatCount := -1 },
    steps := [.command .play, .run 7 5000] }

theorem Track.stalls_lastInstant (c : Content) (hlength : c.length = .unbounded)
    (hlimit : c.failAfter = none) : (lastInstant.params c).Stalls := by
  refine (stalls_params_iff _ _).mpr ⟨hlength, by decide, by decide, by decide, ?_⟩
  rw [hlimit]
  exact nofun

/-! ## What answers -/

namespace Player

theorem run_play_ready (params : Params) (hdelay : params.delay.val = 0) :
    (new params).run [.command .play, .advance 0] =
      some ([.acted true, .reported ⟨.trackReady, 0⟩],
        { new params with buffering := 0, lifecycle := .playing, announced := true }) := by
  simp [run, act, perform, play, new, advance, isEnded, Lifecycle.isEnded, hdelay]

/-- Time that passes comes to an answer unless it stalls. A playing track takes finitely many turns
just if it does not stall; a track that does not stall lets every run answer, and no scenario and no
soak goes on for ever with it; and those that stall are known by what their authors ask for. -/
theorem answers_unless_stalls {p : Player} (hreach : p.Reachable) (budget : Nat) :
    (p.advance budget = none ↔
      p.lifecycle = .playing ∧ p.announced = true ∧ p.params.Stalls) ∧
    (p.params.extent.isEmpty = false →
      ((∃ turns result, walkWithin true turns p budget 0 = some result) ↔ ¬p.params.Stalls)) ∧
    (¬p.params.Stalls → ∀ actions, ∃ replies q, p.run actions = some (replies, q)) ∧
    (∀ (t : Track) (c : Content), (t.params c).Stalls ↔
      c.length = .unbounded ∧ t.offset.val = lastMillis ∧ 0 < t.duration.val ∧ t.repeatCount < 0 ∧
        ∀ limit, c.failAfter = some limit → maxPlays * t.duration.val < limit.val) ∧
    (∀ (s : Scenario) (c : Content), s.content.resolve = .ok c → ¬(s.track.params c).Stalls →
      (s.validate = .ok () → s.replay ≠ .error .endless) ∧
      ∀ (σ : Type) (next : σ → UInt32 × σ),
        Soak.Draws next (Soak.span (ofTrack s.track c).params) →
          ∀ operations source, Soak.run next s operations source ≠ .error .endless) := by
  have hcoherent := hreach.coherent
  refine ⟨hcoherent.advance_eq_none_iff budget, ?_, ?_, Track.stalls_params_iff, ?_⟩
  · exact fun hwindow => hcoherent.exists_walkWithin_iff hwindow
  · intro hstalls actions
    exact Responsive.exists_run ⟨hcoherent, hstalls⟩ actions
  · intro s c hcontent hstalls
    constructor
    · intro hvalid
      exact Scenario.replay_ne_endless hvalid hcontent hstalls
    · intro σ next hdraws operations source
      exact Soak.run_ne_endless hcontent hstalls hdraws operations source

end Player

/-- A word of zeros is accepted, whatever is drawn with it. -/
theorem Draw.below?_of_zero {σ : Type} {draw : σ → Nat × σ} {s s' : σ} (hzero : draw s = (0, s'))
    (width bound : Nat) : below? draw width bound s = some (0, s') := by
  have haccepted : 0 * bound % (1 <<< width) ≤ zone width bound := by simp
  simpa using below?_of_le hzero haccepted

/-- On a stream of zeros an advance by nothing is drawn. -/
theorem Soak.draw_zeros (span : Nat) :
    draw (fun u : Unit => (0, u)) span () = .ok (.advance 0, ()) := by
  have hchoice : Draw.choice? (fun u : Unit => (0, u)) 100 () = some (0, ()) :=
    Draw.below?_of_zero rfl _ _
  have hbudget : Draw.upTo? (fun u : Unit => (0, u)) (longestStep span) () = some (0, ()) :=
    Draw.below?_of_zero rfl _ _
  simp only [draw, hchoice, orEndless, bind_ok]
  rw [if_pos (by decide), hbudget]
  rfl

namespace Player

/-- A track that does not stall, its scenario, and a soak of it on a stream of zeros. -/
theorem answers_unless_stalls_on_liveSecond :
    ∃ p : Player, (ofTrack Scenario.liveSecond.track {}).run [.command .play, .advance 0] =
        some ([.acted true, .reported ⟨.trackReady, 0⟩], p) ∧
      p.advance 5000 ≠ none ∧ (∃ turns result, walkWithin true turns p 5000 0 = some result) ∧
      (∃ replies q, p.run [.advance 5000, .command .rewind] = some (replies, q)) ∧
      Scenario.liveSecond.replay ≠ .error .endless ∧
      Soak.run (fun u : Unit => (0, u)) .liveSecond 1000 () ≠ .error .endless := by
  have hready := run_play_ready (Scenario.liveSecond.track.params {}) rfl
  obtain ⟨hadvance, hturns, hrun, htrack, hscenario⟩ :=
    answers_unless_stalls ⟨_, _, _, hready⟩ 5000
  have hstalls : ¬(Scenario.liveSecond.track.params {}).Stalls :=
    fun h => absurd ((htrack _ _).mp h).2.1 (by decide)
  obtain ⟨hreplay, hsoak⟩ := hscenario .liveSecond {} rfl hstalls
  refine ⟨_, hready, fun h => ?_, (hturns ?_).mpr ?_, hrun ?_ _, hreplay rfl,
    hsoak Unit _ ?_ _ _⟩
  · exact hstalls (hadvance.mp h).2.2
  · decide
  · exact hstalls
  · exact hstalls
  · intro u hendless
    rw [Soak.draw_zeros] at hendless
    cases hendless

/-- From the last instant on no number of turns uses up a millisecond, although the scenario that
waits for it is valid. -/
theorem advance_never_answers_at_lastInstant :
    ∃ p : Player, (ofTrack .lastInstant {}).run [.command .play, .advance 0] =
        some ([.acted true, .reported ⟨.trackReady, 0⟩], p) ∧
      p.Reachable ∧ p.advance 1 = none ∧ (∀ turns, walkWithin true turns p 1 0 = none) ∧
      Scenario.lastInstant.validate = .ok () ∧
      Scenario.lastInstant.replay = .error .endless := by
  have hstalls := Track.stalls_lastInstant {} rfl rfl
  have hready := run_play_ready (Track.lastInstant.params {}) rfl
  have hreach : Reachable _ := ⟨_, _, _, hready⟩
  have hnone := (hreach.coherent.advance_eq_none_iff 1).mpr ⟨rfl, rfl, hstalls⟩
  refine ⟨_, hready, hreach, hnone, walk_eq_none_iff.mp ?_, rfl, ?_⟩
  · exact (hreach.coherent.walk_eq_none_iff hstalls.isEmpty_eq).mpr hstalls
  · -- The first two steps bring the runner to this player, and the third has no answer.
    rw [Scenario.replay_eq_error_iff (Scenario.ofScenario_of_resolve (c := {}) rfl)]
    refine Runner.applyAll_cons_of_ok rfl (Runner.applyAll_cons_of_ok rfl ?_)
    refine Runner.applyAll_cons_of_error ?_
    exact Runner.apply_advance_of_none hnone

end Player

end Playhead

import Playhead.Proofs.Player.Window

/-!
# Where the window lies

Playback depends on how far the play head is into its window and not on where the window lies on the
time line. `Player.shift` is the player of a later window, just as far into it. Commands, turns and
walks commute with it (`perform_shift`, `turn_shift`, `walk_shift`), and so do whole runs
(`run_shift`). What an offset is cut off to at the ends of the time line makes no difference: both
ends lie outside the window, or at its ends.
-/

namespace Playhead

theorem beq_add_right (m n k : Nat) : (m + k == n + k) = (m == n) := by
  rw [Bool.eq_iff_iff, beq_iff_eq, beq_iff_eq, Nat.add_right_cancel_iff]

/-- The parameters `b` are those of `a` for a window that lies `k` later. The duration that was
asked for is not compared, for it plays no part. -/
structure Params.Shifted (k : Nat) (a b : Params) : Prop where
  start_eq : b.start.val = a.start.val + k
  extent_eq : b.extent = a.extent
  repeats_eq : b.repeats = a.repeats
  failAfter_eq : b.failAfter = a.failAfter
  delay_eq : b.delay = a.delay
  bounded : ∃ length, a.extent = .finite length
  fits : b.Fits

namespace Params.Shifted

variable {k : Nat} {a b : Params}

theorem fits_of_later (h : a.Shifted k b) : a.Fits := by
  intro length hext
  have hroom := h.fits length (h.extent_eq.trans hext)
  have hstart := h.start_eq
  omega

theorem exists_last (h : a.Shifted k b) :
    ∃ last, a.last? = some last ∧ b.last? = some (last + k) ∧ a.start.val ≤ last ∧
      last + k ≤ lastMillis := by
  obtain ⟨length, hext⟩ := h.bounded
  have hext' := h.extent_eq.trans hext
  have hroom := h.fits length hext'
  have hstart := h.start_eq
  refine ⟨a.start.val + length.val, h.fits_of_later.last?_eq hext, ?_, Nat.le_add_right _ _,
    by omega⟩
  rw [h.fits.last?_eq hext', hstart, Nat.add_right_comm]

theorem clip_eq (h : a.Shifted k b) (offset : Int) :
    b.clip (capMillis (b.start.val + offset).toNat) =
      a.clip (capMillis (a.start.val + offset).toNat) + k := by
  obtain ⟨last, hlast, hlast', hle, hmax⟩ := h.exists_last
  have hstart := h.start_eq
  simp only [clip, hlast, hlast', capMillis]
  omega

theorem isLast_add (h : a.Shifted k b) (x : Nat) : b.isLast (x + k) = a.isLast x := by
  obtain ⟨last, hlast, hlast', -, -⟩ := h.exists_last
  rw [isLast, isLast, hlast, hlast', Bool.eq_iff_iff, beq_iff_eq, beq_iff_eq, Option.some.injEq,
    Option.some.injEq, Nat.add_right_cancel_iff]

theorem window_eq (h : a.Shifted k b) : b.window = a.window := by
  simp only [window, h.extent_eq]

theorem freeLaps_eq (h : a.Shifted k b) (left : Nat) : b.freeLaps left = a.freeLaps left := by
  simp only [freeLaps, h.repeats_eq, h.failAfter_eq, h.window_eq]

end Params.Shifted

/-- The player of the later window `b`, just as far into it. -/
def Player.shift (b : Params) (k : Nat) (p : Player) : Player :=
  { p with params := b, position := p.position + k }

def Turn.shift (b : Params) (k : Nat) : Turn → Turn
  | .stop report q => .stop report (q.shift b k)
  | .lap cost q => .lap cost (q.shift b k)

namespace Player

variable {p : Player} {b : Params} {k left spent : Nat} {folding : Bool}

theorem shift_params : (p.shift b k).params = b := rfl

theorem shift_position : (p.shift b k).position = p.position + k := rfl

theorem shift_plays : (p.shift b k).plays = p.plays := rfl

theorem shift_lifecycle : (p.shift b k).lifecycle = p.lifecycle := rfl

/-! ## Commands -/

theorem exhausted_shift (h : p.params.Shifted k b) : (p.shift b k).exhausted = p.exhausted := by
  simp only [exhausted, shift_params, shift_plays, h.repeats_eq]

theorem seekTarget_shift (h : p.params.Shifted k b) (offset : Int) :
    (p.shift b k).seekTarget offset = p.seekTarget offset + k :=
  h.clip_eq offset

theorem atStart_shift (h : p.params.Shifted k b) : (p.shift b k).atStart = p.atStart := by
  simp only [atStart, shift_params, shift_position, shift_plays, h.start_eq, beq_add_right]

theorem play_shift : (p.shift b k).play = (p.play.1.shift b k, p.play.2) := by
  unfold play
  rw [shift_lifecycle]
  split <;> rfl

theorem pause_shift : (p.shift b k).pause = (p.pause.1.shift b k, p.pause.2) := by
  unfold pause
  rw [shift_lifecycle]
  split <;> rfl

theorem rewind_shift (h : p.params.Shifted k b) :
    (p.shift b k).rewind = (p.rewind.1.shift b k, p.rewind.2) := by
  have hcan : (p.shift b k).canRewind = p.canRewind := by
    simp only [canRewind, shift_params, shift_lifecycle, h.extent_eq]
  simp only [rewind, hcan, atStart_shift h]
  split
  · simp only [shift, h.start_eq]
  · rfl

theorem finish_shift (h : p.params.Shifted k b) :
    (p.shift b k).finish = (p.finish.1.shift b k, p.finish.2) := by
  obtain ⟨last, hlast, hlast', -, -⟩ := h.exists_last
  have hended : (p.shift b k).isEnded = p.isEnded := rfl
  simp only [finish, hended, exhausted_shift h]
  split
  · rfl
  · simp only [shift, hlast, hlast', Option.getD_some]

theorem seek_shift (h : p.params.Shifted k b) (offset : Int) :
    (p.shift b k).seek offset = ((p.seek offset).1.shift b k, (p.seek offset).2) := by
  unfold seek
  dsimp only
  rw [seekTarget_shift h, exhausted_shift h, shift_params, shift_position, shift_plays,
    shift_lifecycle, h.isLast_add, h.repeats_eq, beq_add_right]
  split
  · rfl
  · split
    · rfl
    · split <;> rfl

theorem clearRepeat_shift :
    (p.shift b k).clearRepeat = (p.clearRepeat.1.shift b k, p.clearRepeat.2) := by
  unfold clearRepeat
  rw [shift_lifecycle, shift_plays]
  split
  · rfl
  · split <;> rfl

/-- A command has the same effect in the later window. -/
theorem perform_shift (h : p.params.Shifted k b) (c : Command) :
    (p.shift b k).perform c = ((p.perform c).1.shift b k, (p.perform c).2) := by
  cases c with
  | play => exact play_shift
  | pause => exact pause_shift
  | rewind => exact rewind_shift h
  | finish => exact finish_shift h
  | clearRepeat => exact clearRepeat_shift
  | seek offset => exact seek_shift h offset

/-! ## Time -/

theorem failure?_shift (h : p.params.Shifted k b) :
    (p.shift b k).failure? left = p.failure? left := by
  obtain ⟨last, hlast, hlast', -, -⟩ := h.exists_last
  have hplayed : (p.shift b k).played = p.played := by
    simp only [played, shift_params, shift_position, shift_plays, h.extent_eq, h.start_eq,
      Nat.add_sub_add_right]
  have hend : (p.shift b k).toEnd? = p.toEnd? := by
    simp only [toEnd?, shift_params, shift_position, hlast, hlast', Option.map_some,
      Nat.add_sub_add_right]
  simp only [failure?, hplayed, hend, shift_params, h.failAfter_eq]

/-- A turn in the later window is the turn, later. -/
theorem turn_shift (h : p.params.Shifted k b)
    (hend : ∀ last, p.params.last? = some last → p.position ≤ last) :
    (p.shift b k).turn folding left = (p.turn folding left).shift b k := by
  obtain ⟨last, hlast, hlast', -, hmax⟩ := h.exists_last
  have hend := hend last hlast
  have hfailure : (p.shift b k).failure? left = p.failure? left := failure?_shift h
  have hdistance : last + k - (p.shift b k).position = last - p.position :=
    Nat.add_sub_add_right _ _ _
  -- Inside the window the play head never meets the end of the time line.
  have hcap : ∀ ahead, ahead ≤ last - p.position →
      capMillis ((p.shift b k).position + ahead) = capMillis (p.position + ahead) + k := by
    intro ahead hroom
    simp only [capMillis, shift_position]
    omega
  generalize hturn : p.turn folding left = t
  cases turn_eq_iff.mp hturn with
  | @fail ahead hfail =>
    obtain ⟨-, -, -, -, hroom⟩ := failure?_eq_some_iff.mp hfail
    refine (turn_eq_iff.mpr (.fail (hfailure.trans hfail))).trans ?_
    rw [hcap ahead (hroom last hlast)]
    rfl
  | @lap last₁ laps hfail hlast₁ hreach hmore hlaps =>
    obtain rfl := Option.some.inj (hlast.symm.trans hlast₁)
    have hlaps' : laps =
        if folding then b.freeLaps (left - (last + k - (p.shift b k).position)) else 0 := by
      rwa [hdistance, h.freeLaps_eq]
    refine (turn_eq_iff.mpr (.lap (hfailure.trans hfail) hlast' ?_ ?_ hlaps')).trans ?_
    · rwa [hdistance]
    · rwa [shift_params, h.repeats_eq]
    · rw [hdistance, shift_params, h.window_eq, h.start_eq]
      rfl
  | done hfail hlast₁ hreach hover =>
    obtain rfl := Option.some.inj (hlast.symm.trans hlast₁)
    refine (turn_eq_iff.mpr (.done (hfailure.trans hfail) hlast' ?_ ?_)).trans ?_
    · rwa [hdistance]
    · rwa [shift_params, h.repeats_eq]
    · rw [hdistance]
      rfl
  | drift hfail hroom =>
    have hshort := hroom last hlast
    refine (turn_eq_iff.mpr (.drift (hfailure.trans hfail) ?_)).trans ?_
    · intro last₁ hlast₁
      obtain rfl := Option.some.inj (hlast'.symm.trans hlast₁)
      rwa [hdistance]
    · rw [hcap left (Nat.le_of_lt hshort)]
      rfl

/-- What a walk or an advance answers, in the later window. -/
def carry (b : Params) (k : Nat) (answer : Report × Player) : Report × Player :=
  (answer.1, answer.2.shift b k)

theorem walk_shift (h : p.params.Shifted k b)
    (hend : ∀ last, p.params.last? = some last → p.position ≤ last) :
    (p.shift b k).walk folding left spent = (p.walk folding left spent).map (carry b k) := by
  induction p, left, spent using walk.induct folding with
  | case1 p left spent report q hturn =>
    have hturn' : (p.shift b k).turn folding left = _ := turn_shift h hend
    rw [hturn] at hturn'
    rw [walk_of_stop hturn, walk_of_stop hturn']
    rfl
  | case2 p left spent cost q hturn hrest =>
    have hturn' : (p.shift b k).turn folding left = _ := turn_shift h hend
    rw [hturn] at hturn'
    obtain ⟨hcost, hposition, hplays⟩ := hrest
    rw [walk_of_rest hturn ⟨hcost, hposition, hplays⟩, Option.map_none]
    refine walk_of_rest hturn' ⟨hcost, ?_, hplays⟩
    rw [shift_position, shift_position, hposition]
  | case3 p left spent cost q hturn hmoves ih =>
    have hturn' : (p.shift b k).turn folding left = _ := turn_shift h hend
    rw [hturn] at hturn'
    obtain ⟨-, hposition, hparams, -⟩ := lap_of_turn hturn
    rw [walk_of_lap hturn hmoves, walk_of_lap hturn' ?_]
    · refine ih (hparams ▸ h) fun last hlast => ?_
      rw [hposition]
      exact Params.start_le_last (hparams ▸ hlast)
    · rwa [shift_position, shift_position, Nat.add_right_cancel_iff, shift_plays, shift_plays]

theorem advance_shift (h : p.params.Shifted k b) (hp : p.Coherent) (budget : Nat) :
    (p.shift b k).advance budget = (p.advance budget).map (carry b k) := by
  generalize hadvance : p.advance budget = answer
  cases advance_eq_iff.mp hadvance with
  | ended hended => exact advance_eq_iff.mpr (.ended hended)
  | buffer hactive hearly => exact advance_eq_iff.mpr (.buffer hactive hearly)
  | ready hactive hdue hfresh => exact advance_eq_iff.mpr (.ready hactive hdue hfresh)
  | idle hidle hdue hready => exact advance_eq_iff.mpr (.idle hidle hdue hready)
  | skip hplaying hdue hready hempty =>
    have hempty' : (p.shift b k).params.extent.isEmpty = true := by
      rwa [shift_params, h.extent_eq]
    refine (advance_eq_iff.mpr (.skip (p := p.shift b k) hplaying hdue hready hempty')).trans ?_
    rw [shift_params, h.start_eq]
    rfl
  | walk hplaying hdue hready hwindow hwalk =>
    have hwindow' : (p.shift b k).params.extent.isEmpty = false := by
      rwa [shift_params, h.extent_eq]
    rw [← hwalk, ← walk_shift h hp.position_le_last]
    exact advance_eq_iff.mpr (.walk hplaying hdue hready hwindow' rfl)

/-! ## Runs -/

theorem act_shift (h : p.params.Shifted k b) (hp : p.Coherent) (a : Action) :
    (p.shift b k).act a = (p.act a).map fun (reply, q) => (reply, q.shift b k) := by
  cases a with
  | command c => rw [act_command, act_command, perform_shift h, Option.map_some]
  | advance budget =>
    rw [act, act, advance_shift h hp, Option.map_map, Option.map_map]
    rfl

/-- A run in the later window gets the replies of the run, and to the same player, later. -/
theorem run_shift (h : p.params.Shifted k b) (hp : p.Coherent) (actions : List Action) :
    (p.shift b k).run actions =
      (p.run actions).map fun (replies, q) => (replies, q.shift b k) := by
  induction actions generalizing p with
  | nil => rfl
  | cons a rest ih =>
    rw [run, run, act_shift h hp]
    cases hact : p.act a with
    | none => rfl
    | some answer =>
      obtain ⟨reply, q⟩ := answer
      have hnext := ih (act_params hact ▸ h) (hp.act hact)
      simp only [Option.map_some, Option.bind_eq_bind, Option.bind_some, hnext]
      cases q.run rest <;> rfl

theorem shifted_new {a : Params} (h : a.Shifted k b) : (new a).params.Shifted k (new b).params where
  start_eq := h.start_eq
  extent_eq := h.extent_eq
  repeats_eq := congrArg Repeat.atLeastOnce h.repeats_eq
  failAfter_eq := h.failAfter_eq
  delay_eq := h.delay_eq
  bounded := h.bounded
  fits := h.fits

theorem new_shift {a : Params} (h : a.Shifted k b) : new b = (new a).shift (new b).params k := by
  simp only [new, shift, h.start_eq, h.delay_eq]

/-- Two players of the same window at different places on the time line cannot be told apart but by
where they are: whatever is done to both, they give the same replies, and then they are in the same
state, with play heads as far apart as the windows. A run may stop anywhere, so this holds behind
each of its actions. -/
theorem run_new_translation_invariant (params : Params) (start requested : Millis)
    {length : Millis} {k : Nat} (hextent : params.extent = .finite length)
    (hstart : start.val = params.start.val + k) (hfits : start.val + length.val ≤ lastMillis)
    (actions : List Action) :
    ∃ replies p q, (new params).run actions = some (replies, p) ∧
      (new { params with start, requested }).run actions = some (replies, q) ∧
      q.lifecycle = p.lifecycle ∧ q.plays = p.plays ∧ q.buffering = p.buffering ∧
      q.loading = p.loading ∧ q.position = p.position + k := by
  have hlater : params.Shifted k { params with start, requested } := {
    start_eq := hstart
    extent_eq := rfl
    repeats_eq := rfl
    failAfter_eq := rfl
    delay_eq := rfl
    bounded := ⟨length, hextent⟩
    fits := fun other hother => by
      rw [hextent, Extent.finite.injEq] at hother
      exact hother ▸ hfits }
  obtain ⟨replies, p, hrun⟩ := exists_run (p := new params) hlater.fits_of_later actions
  have hshift := run_shift (shifted_new hlater) (coherent_new params) actions
  rw [hrun, ← new_shift hlater] at hshift
  exact ⟨replies, p, _, hrun, hshift, rfl, rfl, rfl, rfl, rfl⟩

/-- Two passes with seeks that go far beyond the window, on both sides. -/
def farSeeks : List Action :=
  [.command .play, .advance 0, .command (.seek (-5)), .advance 14, .command (.seek (-9)),
    .command (.seek 9223372036854775807)]

/-- A window of ten milliseconds at the beginning and at the end of the time line: the seeks are cut
off at one end of it or the other, and land in the same places. -/
theorem run_new_translation_invariant_to_lastMillis :
    ∃ replies p q,
      (new { repeats := .times 2, extent := .finite 10 }).run farSeeks = some (replies, p) ∧
      (new
        { requested := .ofNat 7, repeats := .times 2, start := .ofNat (lastMillis - 10),
          extent := .finite 10 }).run farSeeks = some (replies, q) ∧
      p.lifecycle = .done ∧ q.lifecycle = .done ∧ p.position = 10 ∧ q.position = lastMillis := by
  have hrun : (new { repeats := .times 2, extent := .finite 10 }).run farSeeks =
      some ([.acted true, .reported ⟨.trackReady, 0⟩, .acted false, .reported ⟨.timeUpdate, 14⟩,
          .acted true, .acted true],
        ⟨{ repeats := .times 2, extent := .finite 10 }, 0, 10, 2, .done, true⟩) := by cbv
  obtain ⟨replies, p, q, hp, hq, hlifecycle, -, -, -, hposition⟩ :=
    run_new_translation_invariant { repeats := .times 2, extent := .finite 10 }
      (.ofNat (lastMillis - 10)) (.ofNat 7) (k := lastMillis - 10) rfl rfl (by decide) farSeeks
  rw [hrun] at hp
  cases hp
  exact ⟨_, _, _, hrun, hq, rfl, hlifecycle, rfl, hposition⟩

end Player

end Playhead

import Playhead.Proofs.Player.Advance

/-!
# What every player keeps

`Player.Coherent` collects what holds of a player at every moment of its life: the play head lies
in its window, the pass counter stays within its number, a finished track rests where finished
tracks rest, buffering only shrinks and a crash has a cause. Every command keeps it, every turn of
the walk keeps it, and so does every run from a new player.
-/

namespace Playhead

namespace Params

variable {p : Params} {last : Nat}

theorem start_le_last (h : p.last? = some last) : p.start.val ≤ last := by
  unfold last? at h
  split at h
  · cases h
    have := p.start.val_le
    simp only [capMillis]
    omega
  · cases h

theorem last_le_lastMillis (h : p.last? = some last) : last ≤ lastMillis := by
  unfold last? at h
  split at h
  · cases h
    exact capMillis_le _
  · cases h

theorem start_le_clip (p : Params) (x : Nat) : p.start.val ≤ p.clip x := by
  unfold clip
  cases h : p.last? with
  | none => exact Nat.le_max_right _ _
  | some last =>
    have := start_le_last h
    simp only
    omega

theorem clip_le_last (h : p.last? = some last) (x : Nat) : p.clip x ≤ last := by
  simp only [clip, h]
  exact Nat.min_le_right _ _

theorem clip_le_lastMillis (p : Params) {x : Nat} (hx : x ≤ lastMillis) :
    p.clip x ≤ lastMillis := by
  have hstart := p.start.val_le
  unfold clip
  cases h : p.last? with
  | none => simp only; omega
  | some last => simp only; omega

theorem last?_of_isEmpty (h : p.extent.isEmpty = true) : p.last? = some p.start.val := by
  unfold Extent.isEmpty at h
  split at h
  · next length hext =>
    have hzero : length.val = 0 := by simpa using h
    simp only [last?, hext, hzero, Nat.add_zero, capMillis_of_le p.start.val_le]
  · cases h

end Params

namespace Player

variable {p q : Player} {params : Params}

/-- What holds of a player whatever was done to it. -/
structure Coherent (p : Player) : Prop where
  start_le_position : p.params.start.val ≤ p.position
  position_le_last : ∀ last, p.params.last? = some last → p.position ≤ last
  position_le_lastMillis : p.position ≤ lastMillis
  plays_le_maxPlays : p.plays ≤ maxPlays
  /-- A track is played at least once. -/
  passes_pos : ∀ passes, p.params.repeats = .times passes → 1 ≤ passes.val
  plays_le_passes : ∀ passes, p.params.repeats = .times passes → p.plays ≤ passes.val
  /-- Until the track is done, there is a pass to play. -/
  plays_lt_passes : ∀ passes, p.params.repeats = .times passes → p.lifecycle ≠ .done →
    p.plays < passes.val
  /-- A finished track rests at the end of its window, live content at the start. -/
  position_of_done : p.lifecycle = .done →
    p.position = p.params.last?.getD p.params.start.val
  /-- A finished track has completed its passes, unless there was nothing to play. -/
  plays_of_done : p.lifecycle = .done → p.params.extent.isEmpty = false →
    ∀ passes, p.params.repeats = .times passes → p.plays = passes.val
  buffering_le_delay : p.buffering ≤ p.params.delay.val
  buffering_of_announced : p.announced = true → p.buffering = 0
  /-- Only a player with a failure limit fails, and only once it is ready. -/
  cause_of_failed : p.lifecycle = .failed →
    p.params.failAfter.isSome = true ∧ p.announced = true

theorem coherent_new (params : Params) : (new params).Coherent where
  start_le_position := Nat.le_refl _
  position_le_last _ := Params.start_le_last
  position_le_lastMillis := params.start.val_le
  plays_le_maxPlays := Nat.zero_le _
  passes_pos passes h := by
    simp only [new, Repeat.atLeastOnce, Repeat.once] at h
    grind
  plays_le_passes _ _ := Nat.zero_le _
  plays_lt_passes passes h _ := by
    simp only [new, Repeat.atLeastOnce, Repeat.once] at h ⊢
    grind
  position_of_done h := by cases h
  plays_of_done h := by cases h
  buffering_le_delay := Nat.le_refl _
  buffering_of_announced h := by cases h
  cause_of_failed h := by cases h

/-! ## Commands -/

theorem Coherent.switch (h : p.Coherent) (hdone : p.lifecycle ≠ .done) {l : Lifecycle}
    (hl : l = .idle ∨ l = .playing) : { p with lifecycle := l : Player }.Coherent :=
  { h with
    plays_lt_passes := fun passes hpasses _ => h.plays_lt_passes passes hpasses hdone
    position_of_done := by rcases hl with rfl | rfl <;> simp
    plays_of_done := by rcases hl with rfl | rfl <;> simp
    cause_of_failed := by rcases hl with rfl | rfl <;> simp }

theorem Coherent.play (h : p.Coherent) : p.play.1.Coherent := by
  unfold Player.play
  split
  · next hidle => exact h.switch (by simp [hidle]) (.inr rfl)
  · exact h

theorem Coherent.pause (h : p.Coherent) : p.pause.1.Coherent := by
  unfold Player.pause
  split
  · next hplaying => exact h.switch (by simp [hplaying]) (.inl rfl)
  · exact h

theorem Coherent.rewind (h : p.Coherent) : p.rewind.1.Coherent := by
  unfold Player.rewind
  split
  · exact { h with
      start_le_position := Nat.le_refl _
      position_le_last := fun _ => Params.start_le_last
      position_le_lastMillis := p.params.start.val_le
      plays_le_maxPlays := Nat.zero_le _
      plays_le_passes := fun _ _ => Nat.zero_le _
      plays_lt_passes := fun passes hpasses _ => h.passes_pos passes hpasses
      position_of_done := by simp
      plays_of_done := by simp
      cause_of_failed := by simp }
  · exact h

theorem Coherent.exhausted_le (h : p.Coherent) : p.exhausted ≤ maxPlays := by
  unfold exhausted
  split
  · next passes _ => exact Nat.le_sub_one_of_lt passes.isLt
  · exact h.plays_le_maxPlays

theorem exhausted_of_times {passes : Fin UInt32.size} (h : p.params.repeats = .times passes) :
    p.exhausted = passes.val := by
  simp [exhausted, h]

/-- A track that is made done rests where finished tracks rest. -/
theorem Coherent.toDone (h : p.Coherent) :
    { p with
      position := p.params.last?.getD p.params.start.val
      plays := p.exhausted
      lifecycle := .done : Player }.Coherent := by
  refine { h with
    start_le_position := ?_
    position_le_last := ?_
    position_le_lastMillis := ?_
    plays_le_maxPlays := h.exhausted_le
    plays_le_passes := fun passes hpasses => Nat.le_of_eq (exhausted_of_times hpasses)
    plays_lt_passes := by simp
    position_of_done := by simp
    plays_of_done := fun _ _ passes hpasses => exhausted_of_times hpasses
    cause_of_failed := by simp }
  · cases hlast : p.params.last? with
    | none => exact Nat.le_refl _
    | some last => exact Params.start_le_last hlast
  · rintro last hlast
    simp only at hlast
    simp [hlast]
  · cases hlast : p.params.last? with
    | none => exact p.params.start.val_le
    | some last => exact Params.last_le_lastMillis hlast

theorem Coherent.finish (h : p.Coherent) : p.finish.1.Coherent := by
  unfold Player.finish
  split
  · exact h
  · exact h.toDone

theorem seekTarget_le_lastMillis (p : Player) (offset : Int) :
    p.seekTarget offset ≤ lastMillis :=
  p.params.clip_le_lastMillis (capMillis_le _)

theorem Coherent.toPosition (h : p.Coherent) {x : Nat} (hdone : p.lifecycle ≠ .done)
    (hstart : p.params.start.val ≤ x)
    (hend : ∀ last, p.params.last? = some last → x ≤ last) (hmax : x ≤ lastMillis) :
    { p with position := x : Player }.Coherent :=
  { h with
    start_le_position := hstart
    position_le_last := hend
    position_le_lastMillis := hmax
    position_of_done := fun hd => absurd hd hdone }

/-- A finished track that leaves its end goes back into its last pass. -/
theorem Coherent.reopened (h : p.Coherent) {x : Nat} (hstart : p.params.start.val ≤ x)
    (hend : ∀ last, p.params.last? = some last → x ≤ last) (hmax : x ≤ lastMillis) :
    { p with position := x, plays := p.plays - 1, lifecycle := .idle : Player }.Coherent := by
  refine { h with
    start_le_position := hstart
    position_le_last := hend
    position_le_lastMillis := hmax
    plays_le_maxPlays := Nat.le_trans (Nat.sub_le _ _) h.plays_le_maxPlays
    plays_le_passes := fun passes hpasses =>
      Nat.le_trans (Nat.sub_le _ _) (h.plays_le_passes passes hpasses)
    plays_lt_passes := ?_
    position_of_done := by simp
    plays_of_done := by simp
    cause_of_failed := by simp }
  intro passes hpasses _
  have hpos := h.passes_pos passes hpasses
  have hle := h.plays_le_passes passes hpasses
  simp only
  omega

theorem Coherent.seek (h : p.Coherent) (offset : Int) : (p.seek offset).1.Coherent := by
  have hstart := p.params.start_le_clip (capMillis (p.params.start.val + offset).toNat)
  have hend := fun last (hlast : p.params.last? = some last) =>
    p.params.clip_le_last hlast (capMillis (p.params.start.val + offset).toNat)
  have hmax := p.seekTarget_le_lastMillis offset
  unfold Player.seek
  simp only
  split
  · exact h
  · split
    · next hlast =>
      -- Landing on the end of the last pass is the same as finishing the track there.
      simp only [Params.isLast, Bool.and_eq_true, beq_iff_eq] at hlast
      have hrest : p.params.last?.getD p.params.start.val = p.seekTarget offset := by
        rw [hlast.1, Option.getD_some]
      rw [← hrest]
      exact h.toDone
    · split
      · exact h.reopened hstart hend hmax
      · next hdone => exact h.toPosition hdone hstart hend hmax

theorem Coherent.clearRepeat (h : p.Coherent) : p.clearRepeat.1.Coherent := by
  unfold Player.clearRepeat
  split
  · exact h
  · next hfailed =>
    split
    · exact { h with
        plays_le_maxPlays := Nat.zero_le _
        plays_le_passes := fun _ _ => Nat.zero_le _
        plays_lt_passes := fun passes hpasses _ => h.passes_pos passes hpasses
        position_of_done := by simp
        plays_of_done := by simp
        cause_of_failed := by simp }
    · next hkept =>
      refine { h with
        plays_le_maxPlays := Nat.zero_le _
        plays_le_passes := fun _ _ => Nat.zero_le _
        plays_lt_passes := fun passes hpasses _ => h.passes_pos passes hpasses
        plays_of_done := ?_ }
      intro hdone hempty passes hpasses
      have hplays := h.plays_of_done hdone hempty passes hpasses
      have hpos := h.passes_pos passes hpasses
      simp only at hdone
      simp only [hdone, decide_true, Bool.true_and, decide_eq_true_eq] at hkept
      omega

theorem Coherent.perform (h : p.Coherent) (c : Command) : (p.perform c).1.Coherent := by
  cases c with
  | play => exact h.play
  | pause => exact h.pause
  | rewind => exact h.rewind
  | finish => exact h.finish
  | clearRepeat => exact h.clearRepeat
  | seek offset => exact h.seek offset

/-! ## Time -/

theorem freeLaps_of_times {passes : Fin UInt32.size} (h : params.repeats = .times passes)
    (left : Nat) : params.freeLaps left = 0 := by
  simp [Params.freeLaps, h]

/-- A completed pass leaves a player that plays on from the start. -/
theorem Coherent.lap (h : p.Coherent) (hplaying : p.lifecycle = .playing) {folding : Bool}
    {left cost : Nat} (hturn : p.turn folding left = .lap cost q) :
    q.Coherent ∧ q.lifecycle = .playing ∧ q.announced = p.announced := by
  cases turn_eq_iff.mp hturn with
  | @lap last laps hfail hlast hreach hmore hlaps =>
    have hlt : ∀ passes, p.params.repeats = .times passes →
        capPlays (capPlays (p.plays + 1) + laps) < passes.val := by
      intro passes hpasses
      rw [freeLaps_of_times hpasses, ite_self] at hlaps
      rw [hlaps, Nat.add_zero, capPlays_of_le (capPlays_le _)]
      simpa [hpasses, Repeat.allowsAnother] using hmore
    exact ⟨{ h with
      start_le_position := Nat.le_refl _
      position_le_last := fun _ => Params.start_le_last
      position_le_lastMillis := p.params.start.val_le
      plays_le_maxPlays := capPlays_le _
      plays_le_passes := fun passes hpasses => Nat.le_of_lt (hlt passes hpasses)
      plays_lt_passes := fun passes hpasses _ => hlt passes hpasses
      position_of_done := by simp [hplaying]
      plays_of_done := by simp [hplaying]
      cause_of_failed := by simp [hplaying] }, hplaying, rfl⟩

/-- The turn that ends an advance leaves a coherent player: it crashed, or it finished its last
pass, or it moved on inside its window. -/
theorem Coherent.stop (h : p.Coherent) (hplaying : p.lifecycle = .playing)
    (hready : p.announced = true) {folding : Bool} {left : Nat} {report : Report}
    (hturn : p.turn folding left = .stop report q) : q.Coherent := by
  have hactive : p.lifecycle ≠ .done := by simp [hplaying]
  have hmove : ∀ ahead, (∀ last, p.params.last? = some last → ahead ≤ last - p.position) →
      { p with position := capMillis (p.position + ahead) : Player }.Coherent := by
    intro ahead hroom
    refine h.toPosition hactive ?_ ?_ (capMillis_le _)
    · have hstart := h.start_le_position
      have hmax := h.position_le_lastMillis
      simp only [capMillis]
      omega
    · intro last hlast
      have hend := h.position_le_last last hlast
      have hahead := hroom last hlast
      simp only [capMillis]
      omega
  cases turn_eq_iff.mp hturn with
  | fail hfail =>
    obtain ⟨limit, hlimit, -, -, hroom⟩ := failure?_eq_some_iff.mp hfail
    exact { hmove _ hroom with
      plays_lt_passes := fun passes hpasses _ => h.plays_lt_passes passes hpasses hactive
      position_of_done := by simp
      plays_of_done := by simp
      cause_of_failed := fun _ => ⟨by simp [hlimit], hready⟩ }
  | done hfail hlast hreach hover =>
    have heq : ∀ passes, p.params.repeats = .times passes →
        capPlays (p.plays + 1) = passes.val := by
      intro passes hpasses
      have hlt := h.plays_lt_passes passes hpasses hactive
      have hmax := Nat.le_sub_one_of_lt passes.isLt
      have hle : p.plays + 1 ≤ maxPlays := Nat.le_trans hlt hmax
      rw [capPlays_of_le hle] at hover ⊢
      simp only [hpasses, Repeat.allowsAnother, decide_eq_false_iff_not] at hover
      omega
    exact { h with
      start_le_position := Params.start_le_last hlast
      position_le_last := by simp_all
      position_le_lastMillis := Params.last_le_lastMillis hlast
      plays_le_maxPlays := capPlays_le _
      plays_le_passes := fun passes hpasses => Nat.le_of_eq (heq passes hpasses)
      plays_lt_passes := by simp
      position_of_done := by simp [hlast]
      plays_of_done := fun _ _ => heq
      cause_of_failed := by simp }
  | drift hfail hroom =>
    exact hmove _ fun last hlast => Nat.le_of_lt (hroom last hlast)

theorem Coherent.walk (h : p.Coherent) (hplaying : p.lifecycle = .playing)
    (hready : p.announced = true) {folding : Bool} {left spent : Nat} {report : Report}
    (hwalk : p.walk folding left spent = some (report, q)) : q.Coherent := by
  refine walk_induction
    (I := fun r _ _ => r.Coherent ∧ r.lifecycle = .playing ∧ r.announced = true)
    (Q := fun _ r => r.Coherent) ?_ ?_ ⟨h, hplaying, hready⟩ hwalk
  · rintro r s left spent cost ⟨hr, hplaying, hready⟩ hturn
    obtain ⟨hs, hplaying', hready'⟩ := hr.lap hplaying hturn
    exact ⟨hs, hplaying', hready'.trans hready⟩
  · rintro r s left spent report ⟨hr, hplaying, hready⟩ hturn
    exact hr.stop hplaying hready hturn

theorem Coherent.advance (h : p.Coherent) {budget : Nat} {report : Report}
    (hadvance : p.advance budget = some (report, q)) : q.Coherent := by
  cases advance_eq_iff.mp hadvance with
  | ended => exact h
  | buffer hactive hearly =>
    exact { h with
      buffering_le_delay := Nat.le_trans (Nat.sub_le _ _) h.buffering_le_delay
      buffering_of_announced := fun hready => by
        have := h.buffering_of_announced hready
        omega }
  | ready hactive hdue hfresh =>
    exact { h with
      buffering_le_delay := Nat.zero_le _
      buffering_of_announced := fun _ => rfl
      cause_of_failed := fun hfailed => ⟨(h.cause_of_failed hfailed).1, rfl⟩ }
  | idle => exact h
  | skip hplaying hdue hready hempty =>
    exact { h with
      start_le_position := Nat.le_refl _
      position_le_last := fun _ => Params.start_le_last
      position_le_lastMillis := p.params.start.val_le
      plays_lt_passes := by simp
      position_of_done := by simp [Params.last?_of_isEmpty hempty]
      plays_of_done := by simp [hempty]
      cause_of_failed := by simp }
  | walk hplaying hdue hready hwindow hwalk => exact h.walk hplaying hready hwalk

theorem Coherent.act (h : p.Coherent) {a : Action} {reply : Reply}
    (hact : p.act a = some (reply, q)) : q.Coherent := by
  cases a with
  | command c =>
    rw [act_command] at hact
    cases hact
    exact h.perform c
  | advance budget =>
    obtain ⟨report, hadvance, -⟩ := act_advance_eq_some_iff.mp hact
    exact h.advance hadvance

theorem Coherent.run (h : p.Coherent) {actions : List Action} {replies : List Reply}
    (hrun : p.run actions = some (replies, q)) : q.Coherent :=
  run_induction (I := Coherent) (fun hr ha => hr.act ha) h hrun

theorem Reachable.coherent (h : p.Reachable) : p.Coherent := by
  obtain ⟨params, actions, replies, hrun⟩ := h
  exact (coherent_new params).run hrun

/-- Whatever is done to a new player, it stays coherent and plays what it was made for; only a
track with no passes at all is given one. -/
theorem run_new_coherent {actions : List Action} {replies : List Reply}
    (hrun : (new params).run actions = some (replies, q)) :
    q.Coherent ∧ q.params = { params with repeats := params.repeats.atLeastOnce } :=
  ⟨(coherent_new params).run hrun, run_params hrun⟩

/-- A player whose play head is moved after one pass and that crashes in the pass after that. -/
theorem run_new_coherent_until_crash :
    ∃ replies q,
      (new { repeats := .times 3, failAfter := some 9, start := 10, extent := .finite 4 }).run
        [.command .play, .advance 0, .advance 6, .command (.seek 1), .advance 100] =
          some (replies, q) ∧
      q.lifecycle = .failed ∧ q.Coherent ∧ q.params.start = 10 := by
  have hrun :
      (new { repeats := .times 3, failAfter := some 9, start := 10, extent := .finite 4 }).run
        [.command .play, .advance 0, .advance 6, .command (.seek 1), .advance 100] =
      some ([.acted true, .reported ⟨.trackReady, 0⟩, .reported ⟨.timeUpdate, 6⟩, .acted true,
          .reported ⟨.trackFail, 4⟩],
        ⟨{ repeats := .times 3, failAfter := some 9, start := 10, extent := .finite 4 },
          0, 11, 2, .failed, true⟩) := by cbv
  obtain ⟨hcoherent, hparams⟩ := run_new_coherent hrun
  exact ⟨_, _, hrun, rfl, hcoherent, by rw [hparams]⟩

end Player

end Playhead

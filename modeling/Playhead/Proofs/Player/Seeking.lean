import Playhead.Proofs.Player.Transitions

/-!
# Seeking

A seek sums and cuts off twice on its way, at the ends of the time line and at those of the window;
what comes out is the exact place, clamped once into the window (`seekTarget_eq_clamp`). From there
on a seek is known by where it lands: `Player.Relocates` says what it makes of a track, and
`seek_relocates` that it does so from every state, and which pass counts a row of seeks can leave.
`seek_back_of_finish` is about the way to the end of a track and back.
-/

namespace Playhead

namespace Params

variable {p : Params} {last : Nat}

/-- The farthest position of the play head: the end of the window, or the last instant if the window
has none. -/
def farthest (p : Params) : Nat := p.last?.getD lastMillis

/-- The place in the window that is nearest to `x`. -/
def clamp (p : Params) (x : Int) : Int := max p.start.val (min x p.farthest)

theorem farthest_of_last? (h : p.last? = some last) : p.farthest = last := by
  rw [farthest, h, Option.getD_some]

theorem farthest_of_unbounded (h : p.last? = none) : p.farthest = lastMillis := by
  rw [farthest, h, Option.getD_none]

theorem start_le_farthest (p : Params) : p.start.val ≤ p.farthest := by
  cases h : p.last? with
  | none => exact farthest_of_unbounded h ▸ p.start.val_le
  | some last => exact farthest_of_last? h ▸ start_le_last h

theorem clamp_of_le {x : Nat} (hstart : p.start.val ≤ x) (hle : x ≤ p.farthest) :
    p.clamp x = x := by
  unfold clamp
  omega

end Params

/-- Whether no pass follows the one after `completed` passes. -/
theorem Repeat.allowsAnother_succ_eq_false_iff {r : Repeat} {completed : Nat} :
    r.allowsAnother (capPlays (completed + 1)) = false ↔
      ∃ passes, r = .times passes ∧ passes.val ≤ completed + 1 := by
  cases r with
  | forever => simp [allowsAnother]
  | times passes =>
    have hmax : passes.val ≤ maxPlays := Nat.le_sub_one_of_lt passes.isLt
    rw [allowsAnother, decide_eq_false_iff_not, capPlays]
    constructor
    · intro hover
      exact ⟨passes, rfl, by omega⟩
    · rintro ⟨_, heq, hle⟩
      cases heq
      omega

namespace Player

variable {p q : Player} {offset : Int} {last : Nat}

/-! ## Where a seek lands -/

/-- Cutting off at the ends of the time line makes no difference to a place that is then clamped
into the window. -/
theorem seekTarget_eq_clamp (p : Player) (offset : Int) :
    (p.seekTarget offset : Int) = p.params.clamp (p.params.start.val + offset) := by
  have hmax := p.params.start.val_le
  unfold seekTarget Params.clip Params.clamp
  cases h : p.params.last? with
  | none =>
    rw [Params.farthest_of_unbounded h]
    simp only [capMillis]
    omega
  | some last =>
    have hstart := Params.start_le_last h
    have hlast := Params.last_le_lastMillis h
    rw [Params.farthest_of_last? h]
    simp only [capMillis]
    omega

theorem Coherent.position_le_farthest (h : p.Coherent) : p.position ≤ p.params.farthest := by
  cases hlast : p.params.last? with
  | none => exact Params.farthest_of_unbounded hlast ▸ h.position_le_lastMillis
  | some last => exact Params.farthest_of_last? hlast ▸ h.position_le_last last hlast

/-- The offset at which the play head is leads to it. -/
theorem Coherent.seekTarget_position (h : p.Coherent) :
    p.seekTarget (p.position - p.params.start.val : Nat) = p.position := by
  have hstart := h.start_le_position
  have htarget := p.seekTarget_eq_clamp (p.position - p.params.start.val : Nat)
  have hplace : (p.params.start.val : Int) + (p.position - p.params.start.val : Nat) =
      p.position := by omega
  rw [hplace, Params.clamp_of_le hstart h.position_le_farthest] at htarget
  exact Int.ofNat.inj htarget

/-- A window with a single position has the play head there, and so has every seek. -/
theorem Coherent.seekTarget_of_point (h : p.Coherent)
    (hpoint : p.params.farthest = p.params.start.val) (offset : Int) :
    p.seekTarget offset = p.position := by
  have hstart := h.start_le_position
  have hend := h.position_le_farthest
  have htarget := p.seekTarget_eq_clamp offset
  unfold Params.clamp at htarget
  omega

theorem seekTarget_seek (p : Player) (offset other : Int) :
    (p.seek offset).1.seekTarget other = p.seekTarget other := by
  have hparams := p.perform_params (.seek offset)
  unfold seekTarget
  rw [perform] at hparams
  rw [hparams]

/-! ## What becomes of the track -/

/-- A place at which the track is over: the end of its window, in the last of its passes. -/
def Completes (p : Player) (x : Nat) : Prop :=
  p.params.last? = some x ∧ ∃ passes, p.params.repeats = .times passes ∧ passes.val ≤ p.plays + 1

theorem completes_iff {x : Nat} : p.Completes x ↔ p.params.last? = some x ∧
    p.params.repeats.allowsAnother (capPlays (p.plays + 1)) = false := by
  rw [Completes, Repeat.allowsAnother_succ_eq_false_iff]

theorem not_completes_iff {x : Nat} : ¬p.Completes x ↔ (p.params.last? = some x →
    p.params.repeats.allowsAnother (capPlays (p.plays + 1)) = true) := by
  rw [completes_iff, not_and, Bool.not_eq_false]

/-- What a seek to `offset` makes of a track that has not crashed, and whether it tells of an
effect. -/
structure Relocates (p : Player) (offset : Int) (q : Player) (effect : Bool) : Prop where
  position_eq : (q.position : Int) = p.params.clamp (p.params.start.val + offset)
  effect_iff : effect = true ↔ q.position ≠ p.position
  still : effect = false → q = p
  /-- A second seek to the same offset changes nothing. -/
  again : q.seek offset = (q, false)
  finishes : effect = true → p.Completes q.position →
    q.lifecycle = .done ∧ ∀ passes, p.params.repeats = .times passes → q.plays = passes.val
  /-- A finished track goes back into its last pass. -/
  reopens : effect = true → ¬p.Completes q.position → p.lifecycle = .done →
    q.lifecycle = .idle ∧ q.plays = p.plays - 1
  keeps : effect = true → ¬p.Completes q.position → p.lifecycle ≠ .done →
    q.lifecycle = p.lifecycle ∧ q.plays = p.plays
  frame : q.params = p.params ∧ q.buffering = p.buffering ∧ q.announced = p.announced

theorem position_seek (offset : Int) (hactive : p.lifecycle ≠ .failed) :
    (p.seek offset).1.position = p.seekTarget offset := by
  have hseek := p.seeks_seek offset
  generalize p.seek offset = result at hseek ⊢
  cases hseek with
  | still hstill => exact (hstill.resolve_left hactive).symm
  | land | back | move => rfl

theorem seek_seek (offset : Int) (hactive : p.lifecycle ≠ .failed) :
    (p.seek offset).1.seek offset = ((p.seek offset).1, false) := by
  apply seek_of_still
  rw [seekTarget_seek, position_seek offset hactive]

theorem relocates_seek (hactive : p.lifecycle ≠ .failed) (offset : Int) :
    p.Relocates offset (p.seek offset).1 (p.seek offset).2 := by
  have hposition := position_seek offset hactive
  have hagain := seek_seek offset hactive
  have htarget := p.seekTarget_eq_clamp offset
  have hseek := p.seeks_seek offset
  generalize p.seek offset = result at hposition hagain hseek ⊢
  rw [← hposition] at htarget
  cases hseek with
  | still hstill =>
    exact ⟨htarget, by simp, fun _ => rfl, hagain, by simp, by simp, by simp, rfl, rfl, rfl⟩
  | land _ hmoves hend hover =>
    have hcompletes : p.Completes (p.seekTarget offset) := completes_iff.mpr ⟨hend, hover⟩
    refine ⟨htarget, by simpa using hmoves, by simp, hagain, ?_, ?_, ?_, rfl, rfl, rfl⟩
    · intro _ _
      exact ⟨rfl, fun _ => exhausted_of_times⟩
    · intro _ hnot
      exact absurd hcompletes hnot
    · intro _ hnot
      exact absurd hcompletes hnot
  | back hdone hmoves hinside =>
    have hnot : ¬p.Completes (p.seekTarget offset) := not_completes_iff.mpr hinside
    refine ⟨htarget, by simpa using hmoves, by simp, hagain, ?_, ?_, ?_, rfl, rfl, rfl⟩
    · intro _ hcompletes
      exact absurd hcompletes hnot
    · intro _ _ _
      exact ⟨rfl, rfl⟩
    · intro _ _ hopen
      exact absurd hdone hopen
  | move hopen hmoves hinside =>
    have hnot : ¬p.Completes (p.seekTarget offset) := not_completes_iff.mpr hinside
    refine ⟨htarget, by simpa using hmoves, by simp, hagain, ?_, ?_, ?_, rfl, rfl, rfl⟩
    · intro _ hcompletes
      exact absurd hcompletes hnot
    · intro _ _ hdone
      simp [isEnded_of_done hdone] at hopen
    · intro _ _ _
      exact ⟨rfl, rfl⟩

/-! ## Rows of seeks -/

/-- A player after seeks to these offsets. -/
def seekAll (p : Player) (offsets : List Int) : Player :=
  offsets.foldl (fun r offset => (r.seek offset).1) p

theorem seekAll_cons (p : Player) (offset : Int) (rest : List Int) :
    p.seekAll (offset :: rest) = (p.seek offset).1.seekAll rest := rfl

/-- One seek leaves the counter where it is, fills it, or takes one pass off a full one. -/
theorem Coherent.plays_of_seek (h : p.Coherent) {passes : Fin UInt32.size}
    (hrepeats : p.params.repeats = .times passes) (offset : Int) :
    (p.seek offset).1.plays = p.plays ∨ (p.seek offset).1.plays = passes.val ∨
      (p.seek offset).1.plays + 1 = passes.val := by
  have hseek := p.seeks_seek offset
  generalize p.seek offset = result at hseek ⊢
  cases hseek with
  | still => exact .inl rfl
  | land => exact .inr (.inl (exhausted_of_times hrepeats))
  | back hdone hmoves =>
    -- An empty window has no place to seek to, so its counter need not be full.
    cases hempty : p.params.extent.isEmpty with
    | true =>
      have hpoint := Params.farthest_of_last? (Params.last?_of_isEmpty hempty)
      exact absurd (h.seekTarget_of_point hpoint offset) hmoves
    | false =>
      have hfull := h.plays_of_done hdone hempty passes hrepeats
      have hpos := h.passes_pos passes hrepeats
      refine .inr (.inr ?_)
      simp only
      omega
  | move => exact .inl rfl

theorem Coherent.plays_of_seekAll (h : p.Coherent) {passes : Fin UInt32.size}
    (hrepeats : p.params.repeats = .times passes) (offsets : List Int) :
    (p.seekAll offsets).plays = p.plays ∨ (p.seekAll offsets).plays = passes.val ∨
      (p.seekAll offsets).plays + 1 = passes.val := by
  induction offsets generalizing p with
  | nil => exact .inl rfl
  | cons offset rest ih =>
    have hparams : (p.seek offset).1.params = p.params := p.perform_params (.seek offset)
    have hone := h.plays_of_seek hrepeats offset
    have hrest := ih (h.seek offset) (hparams ▸ hrepeats)
    rw [seekAll_cons]
    rcases hrest with heq | hfull | hlast
    · rw [heq]
      exact hone
    · exact .inr (.inl hfull)
    · exact .inr (.inr hlast)

/-- A seek lands exactly where it is sent, clamped into the window, and tells whether that is
another place; what becomes of the track hangs on where it lands. However many seeks follow one
another, the pass counter is what it was, or full, or one pass short of full. -/
theorem seek_relocates (hreach : p.Reachable) (hactive : p.lifecycle ≠ .failed) :
    (∀ offset, p.Relocates offset (p.seek offset).1 (p.seek offset).2) ∧
      ∀ passes offsets, p.params.repeats = .times passes →
        (p.seekAll offsets).plays = p.plays ∨ (p.seekAll offsets).plays = passes.val ∨
          (p.seekAll offsets).plays + 1 = passes.val :=
  ⟨relocates_seek hactive, fun _ offsets hrepeats =>
    hreach.coherent.plays_of_seekAll hrepeats offsets⟩

/-- A track in its last pass, on a window that ends four milliseconds before the time line does: the
seek is cut off at the end of the window and finishes it. -/
theorem seek_relocates_near_lastMillis :
    ∃ p q : Player, p.Reachable ∧ p.lifecycle = .idle ∧ p.plays = 1 ∧
      p.seek 9223372036854775807 = (q, true) ∧ q.position = 18446744073709551611 ∧
      q.lifecycle = .done ∧ p.Relocates 9223372036854775807 q true ∧
      ((p.seekAll [9223372036854775807, -1, 5]).plays = 1 ∨
        (p.seekAll [9223372036854775807, -1, 5]).plays = 2 ∨
          (p.seekAll [9223372036854775807, -1, 5]).plays + 1 = 2) := by
  have hrun :
      (new { repeats := .times 2, start := 18446744073709551600, extent := .finite 11 }).run
        [.command .finish, .command (.seek 3)] =
      some ([.acted true, .acted true],
        ⟨{ repeats := .times 2, start := 18446744073709551600, extent := .finite 11 },
          0, 18446744073709551603, 1, .idle, false⟩) := by cbv
  have hreach : Reachable
      ⟨{ repeats := .times 2, start := 18446744073709551600, extent := .finite 11 },
        0, 18446744073709551603, 1, .idle, false⟩ := ⟨_, _, _, hrun⟩
  have hseek : Player.seek
      ⟨{ repeats := .times 2, start := 18446744073709551600, extent := .finite 11 },
        0, 18446744073709551603, 1, .idle, false⟩ 9223372036854775807 =
      (⟨{ repeats := .times 2, start := 18446744073709551600, extent := .finite 11 },
        0, 18446744073709551611, 2, .done, false⟩, true) := by cbv
  obtain ⟨hrelocates, hplays⟩ := seek_relocates hreach (by decide)
  have hone := hrelocates 9223372036854775807
  rw [hseek] at hone
  exact ⟨_, _, hreach, rfl, rfl, hseek, rfl, rfl, hone, hplays 2 _ rfl⟩

/-! ## To the end and back -/

theorem finish_of_active (hactive : p.isEnded = false) :
    p.finish = ({ p with
      position := p.params.last?.getD p.params.start.val
      plays := p.exhausted
      lifecycle := .done }, true) := by
  rw [finish, if_neg (by simp [hactive])]

/-- Finishing a track and seeking back to where the play head was. -/
theorem Coherent.seek_finish (h : p.Coherent) (hactive : p.isEnded = false)
    (hlast : p.params.last? = some last) (hinside : p.position < last) :
    p.finish.1.seek (p.position - p.params.start.val : Nat) =
      ({ p with plays := p.exhausted - 1, lifecycle := .idle }, true) := by
  have hfinish := finish_of_active hactive
  have htarget : p.finish.1.seekTarget (p.position - p.params.start.val : Nat) = p.position := by
    rw [hfinish]
    exact h.seekTarget_position
  have hposition : p.finish.1.position = last := by
    rw [hfinish, hlast, Option.getD_some]
  have hdone : p.finish.1.lifecycle = .done := by rw [hfinish]
  have hseek := h.finish.seek_of_done hdone (by
    rw [htarget, hposition]
    exact Nat.ne_of_lt hinside)
  rw [htarget, hfinish] at hseek
  rw [hfinish]
  exact hseek

/-- What is left of the passes when a track is finished before its end and its play head then put
back to where it was.

A track with a number of passes that was in its last one is as it was before, but idle. An endless
track is put back one pass further: its counter had not taken the pass that was cut short, and the
seek takes one off all the same, unless there is none. -/
theorem seek_back_of_finish (hreach : p.Reachable) (hactive : p.isEnded = false)
    (hlast : p.params.last? = some last) (hinside : p.position < last) :
    ∃ q r, p.finish = (q, true) ∧ q.lifecycle = .done ∧ q.position = last ∧
      q.seek (p.position - p.params.start.val : Nat) = (r, true) ∧
      r.lifecycle = .idle ∧ r.position = p.position ∧
      (∀ passes, p.params.repeats = .times passes → p.plays + 1 = passes.val →
        r = { p with lifecycle := .idle } ∧ r.played = p.played) ∧
      (p.params.repeats = .forever →
        r = { p with plays := p.plays - 1, lifecycle := .idle } ∧
        (p.plays = 0 → r = { p with lifecycle := .idle } ∧ r.played = p.played) ∧
        (1 ≤ p.plays → r.plays + 1 = p.plays ∧ r.heard + p.params.window = p.heard)) := by
  have hfinish := finish_of_active hactive
  have hseek := hreach.coherent.seek_finish hactive hlast hinside
  rw [hfinish] at hseek
  refine ⟨_, _, hfinish, rfl, by rw [hlast, Option.getD_some], hseek, rfl, rfl, ?_, ?_⟩
  · intro passes hrepeats hpass
    have hplays : p.exhausted - 1 = p.plays := by
      rw [exhausted_of_times hrepeats, ← hpass, Nat.add_sub_cancel]
    rw [hplays]
    exact ⟨rfl, rfl⟩
  · intro hrepeats
    have hplays : p.exhausted = p.plays := by rw [exhausted, hrepeats]
    rw [hplays]
    refine ⟨rfl, ?_, ?_⟩
    · intro hzero
      have hkept : p.plays - 1 = p.plays := by omega
      rw [hkept]
      exact ⟨rfl, rfl⟩
    · intro hpos
      refine ⟨Nat.sub_add_cancel hpos, ?_⟩
      obtain ⟨n, hn⟩ := Nat.exists_eq_add_of_le' hpos
      simp only [heard, hn, Nat.add_sub_cancel, Nat.add_mul, Nat.one_mul]
      omega

/-- A track in the last of three passes. -/
theorem seek_back_of_finish_in_third_pass :
    ∃ p q r : Player, p.Reachable ∧ p.lifecycle = .playing ∧ p.plays = 2 ∧ p.position = 11 ∧
      p.finish = (q, true) ∧ q.position = 14 ∧ q.plays = 3 ∧ q.seek 1 = (r, true) ∧
      r = { p with lifecycle := .idle } ∧ r.played = 9 := by
  have hrun : (new { repeats := .times 3, start := 10, extent := .finite 4 }).run
      [.command .play, .advance 0, .advance 9] =
      some ([.acted true, .reported ⟨.trackReady, 0⟩, .reported ⟨.timeUpdate, 9⟩],
        ⟨{ repeats := .times 3, start := 10, extent := .finite 4 }, 0, 11, 2, .playing, true⟩) := by
    cbv
  have hreach : Reachable
      ⟨{ repeats := .times 3, start := 10, extent := .finite 4 }, 0, 11, 2, .playing, true⟩ :=
    ⟨_, _, _, hrun⟩
  have hlast :
      Params.last? { repeats := .times 3, start := 10, extent := .finite 4 } = some 14 := by
    decide
  obtain ⟨q, r, hfinish, -, hend, hseek, -, -, hrestores, -⟩ :=
    seek_back_of_finish hreach (by decide) hlast (by decide)
  obtain ⟨hr, hplayed⟩ := hrestores 3 rfl (by decide)
  have hplays : q.plays = 3 := by
    cases hfinish
    rfl
  exact ⟨_, q, r, hreach, rfl, rfl, rfl, hfinish, hend, hplays, hseek, hr, hplayed⟩

/-- An endless track in its second pass is put back into its first one. -/
theorem seek_back_of_finish_loses_pass :
    ∃ p q r : Player, p.Reachable ∧ p.lifecycle = .playing ∧ p.params.repeats = .forever ∧
      p.params.last? = some 10 ∧ p.position = 5 ∧ p.plays = 1 ∧
      p.finish = (q, true) ∧ q.seek 5 = (r, true) ∧ r.position = 5 ∧ r.plays = 0 ∧
      p.played = 15 ∧ r.played = 5 := by
  have hrun : (new { repeats := .forever, extent := .finite 10 }).run
      [.command .play, .advance 0, .advance 15] =
      some ([.acted true, .reported ⟨.trackReady, 0⟩, .reported ⟨.timeUpdate, 15⟩],
        ⟨{ repeats := .forever, extent := .finite 10 }, 0, 5, 1, .playing, true⟩) := by cbv
  exact ⟨_, _, _, ⟨_, _, _, hrun⟩, rfl, rfl, by decide, rfl, rfl, rfl, rfl, by decide, by decide,
    by decide, by decide⟩

end Player

end Playhead

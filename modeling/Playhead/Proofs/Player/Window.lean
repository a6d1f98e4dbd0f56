import Playhead.Proofs.Player.Coherence

/-!
# Windows that lie on the time line

A window whose end is not cut off by the end of the time line (`Params.Fits`) has a last position
behind its first, unless it is empty. Every pass over it takes time, so every advance answers
(`exists_advance`), and counting whole passes at once gives the same answer as walking them one
by one (`walk_folding_eq`).
-/

namespace Playhead

/-- The window ends on the time line. -/
def Params.Fits (p : Params) : Prop :=
  ∀ length, p.extent = .finite length → p.start.val + length.val ≤ lastMillis

theorem Params.Fits.last?_eq {p : Params} {length : Millis} (h : p.Fits)
    (hext : p.extent = .finite length) : p.last? = some (p.start.val + length.val) := by
  simp only [last?, hext, capMillis_of_le (h length hext)]

theorem Params.length_pos {p : Params} {length : Millis} (hext : p.extent = .finite length)
    (hwindow : p.extent.isEmpty = false) : 0 < length.val := by
  rw [hext] at hwindow
  simp only [Extent.isEmpty, beq_eq_false_iff_ne] at hwindow
  omega

theorem Params.fits_of_le {p : Params} {length : Millis} (hext : p.extent = .finite length)
    (hend : p.start.val + length.val ≤ lastMillis) : p.Fits := by
  intro other hother
  rw [hext, Extent.finite.injEq] at hother
  exact hother ▸ hend

theorem Params.isEmpty_of_pos {p : Params} {length : Millis} (hext : p.extent = .finite length)
    (hpos : 0 < length.val) : p.extent.isEmpty = false := by
  rw [hext, Extent.isEmpty, beq_eq_false_iff_ne]
  exact Nat.ne_of_gt hpos

theorem Params.window_eq {p : Params} {length : Millis} (hext : p.extent = .finite length) :
    p.window = length.val := by
  simp only [window, hext]

theorem Params.exists_finite_of_last? {p : Params} {last : Nat} (h : p.last? = some last) :
    ∃ length, p.extent = .finite length := by
  unfold last? at h
  split at h
  · next length hext => exact ⟨length, hext⟩
  · cases h

/-- A counter that stopped at the largest count stays there. -/
theorem capPlays_capPlays_add (n k : Nat) : capPlays (capPlays n + k) = capPlays (n + k) := by
  unfold capPlays
  omega

namespace Player

variable {p q : Player} {folding : Bool} {left spent cost : Nat}

/-- A pass over a window that fits takes time or moves the play head. -/
theorem lap_moves (hfits : p.params.Fits) (hwindow : p.params.extent.isEmpty = false)
    (hturn : p.turn folding left = .lap cost q) :
    ¬(cost = 0 ∧ q.position = p.position ∧ q.plays = p.plays) := by
  rintro ⟨hcost, hposition, -⟩
  cases turn_eq_iff.mp hturn with
  | lap hfail hlast hreach hmore hlaps =>
    obtain ⟨length, hext⟩ := Params.exists_finite_of_last? hlast
    have hpos := Params.length_pos hext hwindow
    rw [hfits.last?_eq hext, Option.some.injEq] at hlast
    simp only at hposition
    omega

theorem walk_lap (hfits : p.params.Fits) (hwindow : p.params.extent.isEmpty = false)
    (hturn : p.turn folding left = .lap cost q) :
    p.walk folding left spent = q.walk folding (left - cost) (spent + cost) :=
  walk_of_lap hturn (lap_moves hfits hwindow hturn)

theorem exists_walk (hfits : p.params.Fits) (hwindow : p.params.extent.isEmpty = false)
    (folding : Bool) (left spent : Nat) :
    ∃ report q, p.walk folding left spent = some (report, q) := by
  induction p, left, spent using walk.induct folding with
  | case1 p left spent report q hturn => exact ⟨_, _, walk_of_stop hturn⟩
  | case2 p left spent cost q hturn hrest => exact absurd hrest (lap_moves hfits hwindow hturn)
  | case3 p left spent cost q hturn hmoves ih =>
    rw [walk_of_lap hturn hmoves]
    obtain ⟨-, -, hparams, -⟩ := lap_of_turn hturn
    exact ih (hparams ▸ hfits) (hparams ▸ hwindow)

/-- An advance over a window that fits answers. -/
theorem exists_advance (hfits : p.params.Fits) (budget : Nat) :
    ∃ report q, p.advance budget = some (report, q) := by
  cases hadvance : p.advance budget with
  | some result => exact ⟨result.1, result.2, rfl⟩
  | none =>
    cases advance_eq_iff.mp hadvance with
    | walk hplaying hdue hready hwindow hwalk =>
      obtain ⟨report, q, hsome⟩ := exists_walk hfits hwindow true budget 0
      rw [hwalk] at hsome
      cases hsome

theorem exists_run (hfits : p.params.Fits) (actions : List Action) :
    ∃ replies q, p.run actions = some (replies, q) := by
  induction actions generalizing p with
  | nil => exact ⟨_, _, rfl⟩
  | cons a rest ih =>
    obtain ⟨reply, q, ha⟩ : ∃ reply q, p.act a = some (reply, q) := by
      cases a with
      | command c => exact ⟨_, _, p.act_command c⟩
      | advance budget =>
        obtain ⟨report, q, hadvance⟩ := exists_advance hfits budget
        exact ⟨_, _, act_advance_eq_some_iff.mpr ⟨report, hadvance, rfl⟩⟩
    obtain ⟨more, r, hrest⟩ := ih (act_params ha ▸ hfits)
    exact ⟨_, _, run_cons_eq_some_iff.mpr ⟨reply, q, more, ha, hrest, rfl⟩⟩

/-! ## Endless tracks -/

/-- Where an endless track without a failure limit gets to: the play head goes round the window
and the counter takes up every completed pass. -/
theorem walk_endless (folding : Bool) {length : Millis} (hrepeats : p.params.repeats = .forever)
    (hlimit : p.params.failAfter = none) (hext : p.params.extent = .finite length)
    (hfits : p.params.Fits) (hwindow : p.params.extent.isEmpty = false)
    (hstart : p.params.start.val ≤ p.position)
    (hend : p.position ≤ p.params.start.val + length.val) (hplays : p.plays ≤ maxPlays) :
    p.walk folding left spent = some (⟨.timeUpdate, spent + left⟩,
      { p with
        position := p.params.start.val + (p.position - p.params.start.val + left) % length.val
        plays := capPlays (p.plays + (p.position - p.params.start.val + left) / length.val) }) := by
  have hpos := Params.length_pos hext hwindow
  induction p, left, spent using walk.induct folding with
  | case1 p left spent report q hturn =>
    rw [walk_of_stop hturn]
    have hlast := hfits.last?_eq hext
    have hroom := hfits length hext
    cases turn_eq_iff.mp hturn with
    | fail hfail =>
      obtain ⟨limit, hsome, -⟩ := failure?_eq_some_iff.mp hfail
      rw [hlimit] at hsome
      cases hsome
    | done hfail hlast' hreach hover => simp [hrepeats, Repeat.allowsAnother] at hover
    | drift hfail hshort =>
      have hshort := hshort _ hlast
      have hlt : p.position - p.params.start.val + left < length.val := by omega
      have hposition : capMillis (p.position + left) =
          p.params.start.val + (p.position - p.params.start.val + left) := by
        rw [capMillis_of_le (by omega)]
        omega
      rw [Nat.mod_eq_of_lt hlt, Nat.div_eq_of_lt hlt, Nat.add_zero, capPlays_of_le hplays,
        hposition]
  | case2 p left spent cost q hturn hrest => exact absurd hrest (lap_moves hfits hwindow hturn)
  | case3 p left spent cost q hturn hmoves ih =>
    rw [walk_of_lap hturn hmoves]
    obtain ⟨hcost, -⟩ := lap_of_turn hturn
    have hlast := hfits.last?_eq hext
    cases turn_eq_iff.mp hturn with
    | @lap last laps hfail hlast' hreach hmore hlaps =>
      rw [ih hrepeats hlimit hext hfits hwindow (Nat.le_refl _) (Nat.le_add_right _ _)
        (capPlays_le _)]
      rw [hlast, Option.some.injEq] at hlast'
      subst hlast'
      rw [Params.window_eq hext] at hcost ⊢
      -- The budget of the whole walk is what is left now and the completed passes.
      obtain ⟨rest, hrest⟩ : ∃ rest, rest = left -
          (p.params.start.val + length.val - p.position + laps * length.val) := ⟨_, rfl⟩
      have htotal : p.position - p.params.start.val + left = rest + (laps + 1) * length.val := by
        rw [Nat.add_mul]
        omega
      have hspent : spent + (p.params.start.val + length.val - p.position + laps * length.val) +
          rest = spent + left := by
        omega
      have hplays' : ∀ k, capPlays (capPlays (capPlays (p.plays + 1) + laps) + k) =
          capPlays (p.plays + (k + (laps + 1))) := by
        intro k
        rw [capPlays_capPlays_add, Nat.add_assoc, capPlays_capPlays_add]
        congr 1
        omega
      simp only [Nat.sub_self, Nat.zero_add, ← hrest]
      rw [htotal, Nat.add_mul_mod_self_right, Nat.add_mul_div_right _ _ hpos, hspent, hplays']

/-! ## Counting passes at once -/

/-- Only an endless track with a window but no failure limit has passes to count at once. -/
theorem freeLaps_eq_zero {params : Params}
    (h : params.extent = .unbounded ∨ params.repeats ≠ .forever ∨ params.failAfter ≠ none)
    (left : Nat) : params.freeLaps left = 0 := by
  unfold Params.freeLaps
  split
  · next hrepeats hlimit =>
    rcases h with hext | hforever | hsome
    · simp [Params.window, hext]
    · exact absurd hrepeats hforever
    · exact absurd hlimit hsome
  · rfl

theorem turn_folding_eq (hfree : ∀ left, p.params.freeLaps left = 0) :
    p.turn true left = p.turn false left := by
  generalize hturn : p.turn false left = t
  rw [turn_eq_iff]
  cases turn_eq_iff.mp hturn with
  | fail hfail => exact .fail hfail
  | lap hfail hlast hreach hmore hlaps =>
    exact .lap hfail hlast hreach hmore (by simpa [hfree] using hlaps)
  | done hfail hlast hreach hover => exact .done hfail hlast hreach hover
  | drift hfail hroom => exact .drift hfail hroom

theorem walk_folding_of_free (hfree : ∀ left, p.params.freeLaps left = 0) :
    p.walk true left spent = p.walk false left spent := by
  induction p, left, spent using walk.induct true with
  | case1 p left spent report q hturn =>
    rw [walk_of_stop hturn, walk_of_stop (turn_folding_eq hfree ▸ hturn)]
  | case2 p left spent cost q hturn hrest =>
    rw [walk_of_rest hturn hrest, walk_of_rest (turn_folding_eq hfree ▸ hturn) hrest]
  | case3 p left spent cost q hturn hmoves ih =>
    obtain ⟨-, -, hparams, -⟩ := lap_of_turn hturn
    rw [walk_of_lap hturn hmoves, walk_of_lap (turn_folding_eq hfree ▸ hturn) hmoves]
    exact ih (hparams ▸ hfree)

/-- Counting passes at once gives the answer of walking them one by one. -/
theorem Coherent.walk_folding_eq (h : p.Coherent) (hfits : p.params.Fits)
    (hwindow : p.params.extent.isEmpty = false) :
    p.walk true left spent = p.walk false left spent := by
  cases hext : p.params.extent with
  | unbounded => exact walk_folding_of_free (freeLaps_eq_zero (.inl hext))
  | finite length =>
    by_cases hfree : p.params.repeats = .forever ∧ p.params.failAfter = none
    · -- Both walks end where the time that passes puts an endless track.
      have hend := h.position_le_last _ (hfits.last?_eq hext)
      rw [walk_endless true hfree.1 hfree.2 hext hfits hwindow h.start_le_position hend
          h.plays_le_maxPlays,
        walk_endless false hfree.1 hfree.2 hext hfits hwindow h.start_le_position hend
          h.plays_le_maxPlays]
    · exact walk_folding_of_free (freeLaps_eq_zero
        (.inr (Classical.not_and_iff_not_or_not.mp hfree)))

/-! ## Content time -/

/-- Content time played over all passes, without a bound. -/
def heard (p : Player) : Nat :=
  p.plays * p.params.window + (p.position - p.params.start.val)

/-- What is missing to a limit does not depend on whether the time played is bounded. -/
theorem limit_sub_played (p : Player) (limit : Millis) :
    limit.val - p.played = limit.val - p.heard := by
  have hmax := limit.val_le
  unfold played heard Params.window
  cases p.params.extent with
  | finite length =>
    simp only [capMillis]
    generalize p.plays * length.val = passes
    omega
  | unbounded => simp

theorem heard_lt_of_reach {last : Nat} (hfail : p.failure? left = none)
    (hlast : p.params.last? = some last) (hreach : last - p.position ≤ left) :
    ∀ limit, p.params.failAfter = some limit → p.heard + (last - p.position) < limit.val := by
  intro limit hlimit
  rw [failure?_eq_none_iff] at hfail
  have hdistance := p.limit_sub_played limit
  by_cases hle : limit.val - p.played ≤ left
  · obtain ⟨last', hlast', hlt⟩ := hfail limit hlimit hle
    rw [hlast, Option.some.injEq] at hlast'
    omega
  · omega

theorem heard_lt_of_drift (hfail : p.failure? left = none)
    (hroom : ∀ last, p.params.last? = some last → left < last - p.position) :
    ∀ limit, p.params.failAfter = some limit → p.heard + left < limit.val := by
  intro limit hlimit
  rw [failure?_eq_none_iff] at hfail
  have hdistance := p.limit_sub_played limit
  apply Nat.not_le.mp
  intro hle
  obtain ⟨last, hlast, hlt⟩ := hfail limit hlimit (by omega)
  have hshort := hroom last hlast
  omega

end Player

end Playhead

import Playhead.Proofs.Player.Buffering

/-!
# What commands tell of their effect

`Player.Performs` is the table of commands: what each of them makes of a player, and what it
answers. The answers can be relied on (`Player.Truthful`, `perform_truthful`): a command that tells
of no effect has left the player as it was. Clearing the repeats is the exception, which tells only
whether a finished track was reopened. No command touches buffering, and a rewind leaves a player
that is new but for that.
-/

namespace Playhead

/-- A number of passes that is not zero stays what it is. -/
theorem Repeat.atLeastOnce_eq_self {r : Repeat}
    (hpos : ∀ passes, r = .times passes → 1 ≤ passes.val) : r.atLeastOnce = r := by
  cases r with
  | forever => rfl
  | times passes =>
    have hpasses := hpos passes rfl
    rw [atLeastOnce, if_neg (by omega)]

namespace Player

variable {p : Player} {c : Command} {result : Player × Bool}

/-! ## The table of commands -/

/-- The ways in which a command can go. -/
inductive Performs (p : Player) : Command → Player × Bool → Prop where
  | refuse {c : Command} (hkept : c = .clearRepeat → p.lifecycle = .failed) :
      Performs p c (p, false)
  | play (hidle : p.lifecycle = .idle) :
      Performs p .play ({ p with lifecycle := .playing }, true)
  | pause (hplaying : p.lifecycle = .playing) :
      Performs p .pause ({ p with lifecycle := .idle }, true)
  | rewind (haway : p.atStart = false) :
      Performs p .rewind
        ({ p with position := p.params.start.val, plays := 0, lifecycle := .idle }, true)
  | finish (hactive : p.isEnded = false) :
      Performs p .finish
        ({ p with
          position := p.params.last?.getD p.params.start.val
          plays := p.exhausted
          lifecycle := .done }, true)
  /-- What else a seek makes of the player is told by `Seeks`. -/
  | seek {offset : Int} {q : Player} (hmoves : q.position ≠ p.position) :
      Performs p (.seek offset) (q, true)
  /-- The passes are forgotten, but there is nothing to reopen. -/
  | forget (hkept : p.lifecycle = .done → p.plays = 0) :
      Performs p .clearRepeat ({ p with plays := 0 }, false)
  | reopen (hdone : p.lifecycle = .done) (hplays : 1 ≤ p.plays) :
      Performs p .clearRepeat ({ p with plays := 0, lifecycle := .idle }, true)

theorem performs_rewind (p : Player) : p.Performs .rewind p.rewind := by
  unfold Player.rewind
  split
  · next hmoves =>
    simp only [Bool.and_eq_true, Bool.not_eq_true'] at hmoves
    exact .rewind hmoves.2
  · exact .refuse (by simp)

theorem performs_seek (p : Player) (offset : Int) : p.Performs (.seek offset) (p.seek offset) := by
  have hseek := p.seeks_seek offset
  generalize p.seek offset = result at hseek ⊢
  cases hseek with
  | still => exact .refuse (by simp)
  | land _ hmoves => exact .seek hmoves
  | back _ hmoves => exact .seek hmoves
  | move _ hmoves => exact .seek hmoves

theorem performs_clearRepeat (p : Player) : p.Performs .clearRepeat p.clearRepeat := by
  unfold Player.clearRepeat
  split
  · next hfailed => exact .refuse fun _ => hfailed
  · split
    · next hreopens =>
      simp only [Bool.and_eq_true, decide_eq_true_eq] at hreopens
      exact .reopen hreopens.1 hreopens.2
    · next hkept =>
      simp only [Bool.and_eq_true, decide_eq_true_eq, not_and, Nat.not_le, Nat.lt_one_iff] at hkept
      exact .forget hkept

theorem performs_perform (p : Player) (c : Command) : p.Performs c (p.perform c) := by
  cases c with
  | play =>
    rw [perform, Player.play]
    split
    · next hidle => exact .play hidle
    · exact .refuse (by simp)
  | pause =>
    rw [perform, Player.pause]
    split
    · next hplaying => exact .pause hplaying
    · exact .refuse (by simp)
  | rewind => exact p.performs_rewind
  | finish =>
    rw [perform, Player.finish]
    split
    · exact .refuse (by simp)
    · next hactive => exact .finish (Bool.eq_false_iff.mpr hactive)
  | clearRepeat => exact p.performs_clearRepeat
  | seek offset => exact p.performs_seek offset

/-! ## Answers -/

/-- What changes a player differs from it in a field. -/
theorem Performs.effect_eq_false_iff (h : p.Performs c result) (hc : c ≠ .clearRepeat) :
    result.2 = false ↔ result.1 = p := by
  cases h with
  | refuse => exact iff_of_true rfl rfl
  | play hidle =>
    refine iff_of_false (by simp) fun hsame => ?_
    have hplaying : Lifecycle.playing = p.lifecycle := congrArg lifecycle hsame
    simp [hidle] at hplaying
  | pause hplaying =>
    refine iff_of_false (by simp) fun hsame => ?_
    have hidle : Lifecycle.idle = p.lifecycle := congrArg lifecycle hsame
    simp [hplaying] at hidle
  | rewind haway =>
    refine iff_of_false (by simp) fun hsame => ?_
    have hposition : p.params.start.val = p.position := congrArg position hsame
    have hplays : 0 = p.plays := congrArg plays hsame
    simp [atStart, ← hposition, ← hplays] at haway
  | finish hactive =>
    refine iff_of_false (by simp) fun hsame => ?_
    have hdone : Lifecycle.done = p.lifecycle := congrArg lifecycle hsame
    simp [isEnded_of_done hdone.symm] at hactive
  | seek hmoves =>
    refine iff_of_false (by simp) fun hsame => ?_
    exact hmoves (congrArg position hsame)
  | forget => exact absurd rfl hc
  | reopen => exact absurd rfl hc

/-- Clearing the repeats tells of an effect exactly when it reopens a finished track, and changes
nothing but the counter otherwise. -/
theorem clearRepeat_effect (p : Player) :
    (p.clearRepeat.2 = true ↔ p.lifecycle = .done ∧ p.clearRepeat.1.lifecycle = .idle) ∧
      (p.clearRepeat.2 = false →
        p.clearRepeat.1 = p ∨ p.clearRepeat.1 = { p with plays := 0 }) := by
  have h := p.performs_clearRepeat
  generalize p.clearRepeat = result at h ⊢
  cases h with
  | refuse hkept =>
    have hfailed := hkept rfl
    exact ⟨by simp [hfailed], fun _ => .inl rfl⟩
  | forget hkept =>
    refine ⟨iff_of_false (by simp) ?_, fun _ => .inr rfl⟩
    rintro ⟨hdone, hidle⟩
    simp [hdone] at hidle
  | reopen hdone => exact ⟨iff_of_true rfl ⟨hdone, rfl⟩, by simp⟩

/-! ## The same command again -/

theorem rewind_rewind (p : Player) : p.rewind.1.rewind = (p.rewind.1, false) := by
  generalize hresult : p.rewind = result
  have h := p.performs_rewind
  rw [hresult] at h
  cases h with
  | refuse => exact hresult
  | rewind => rw [Player.rewind, if_neg (by simp [atStart])]

theorem clearRepeat_clearRepeat (p : Player) :
    p.clearRepeat.1.clearRepeat = (p.clearRepeat.1, false) := by
  generalize hresult : p.clearRepeat = result
  have h := p.performs_clearRepeat
  rw [hresult] at h
  cases h with
  | refuse => exact hresult
  | forget => simp [Player.clearRepeat]
  | reopen => simp [Player.clearRepeat]

/-- After a rewind that has an effect, only buffering tells a player from a new one. -/
theorem Coherent.rewind_eq_new (h : p.Coherent) (heffect : p.rewind.2 = true) :
    p.rewind.1 = { new p.params with buffering := p.buffering, announced := p.announced } := by
  have hrewind := p.performs_rewind
  generalize p.rewind = result at hrewind heffect ⊢
  cases hrewind with
  | refuse => cases heffect
  | rewind => simp only [new, Repeat.atLeastOnce_eq_self h.passes_pos]

/-! ## Commands tell the truth -/

/-- The answers of commands, and what can be told from them. -/
structure Truthful (p : Player) : Prop where
  silent_iff : ∀ c, c ≠ .clearRepeat → ((p.perform c).2 = false ↔ (p.perform c).1 = p)
  reopens_iff : (p.perform .clearRepeat).2 = true ↔
    p.lifecycle = .done ∧ (p.perform .clearRepeat).1.lifecycle = .idle
  forgets : (p.perform .clearRepeat).2 = false →
    (p.perform .clearRepeat).1 = p ∨ (p.perform .clearRepeat).1 = { p with plays := 0 }
  /-- No command touches buffering. -/
  frame : ∀ c, (p.perform c).1.buffering = p.buffering ∧ (p.perform c).1.announced = p.announced
  rewind_again : p.rewind.1.rewind = (p.rewind.1, false)
  clearRepeat_again : p.clearRepeat.1.clearRepeat = (p.clearRepeat.1, false)
  rewind_new : p.rewind.2 = true →
    p.rewind.1 = { new p.params with buffering := p.buffering, announced := p.announced }

/-- Whatever was done to a player, its commands tell the truth about what they do to it. -/
theorem perform_truthful (hreach : p.Reachable) : p.Truthful where
  silent_iff c hc := (p.performs_perform c).effect_eq_false_iff hc
  reopens_iff := p.clearRepeat_effect.1
  forgets := p.clearRepeat_effect.2
  frame c := ⟨p.perform_buffering c, p.perform_announced c⟩
  rewind_again := p.rewind_rewind
  clearRepeat_again := p.clearRepeat_clearRepeat
  rewind_new := hreach.coherent.rewind_eq_new

/-- A finished track that still has to buffer: it is at its end already, so that a seek there tells
of no effect, and it can be rewound. -/
theorem perform_truthful_before_ready :
    ∃ p : Player, p.Reachable ∧ p.lifecycle = .done ∧ p.buffering = 6 ∧ p.position = 14 ∧
      p.plays = 3 ∧ p.Truthful ∧ (p.perform (.seek 9)).1 = p ∧ p.rewind.2 = true ∧
      p.rewind.1 = { new p.params with buffering := 6, announced := false } := by
  have hrun :
      (new { repeats := .times 3, start := 10, extent := .finite 4, delay := 8 }).run
        [.command .play, .advance 2, .command .finish] =
      some ([.acted true, .reported ⟨.timeUpdate, 2⟩, .acted true],
        ⟨{ repeats := .times 3, start := 10, extent := .finite 4, delay := 8 },
          6, 14, 3, .done, false⟩) := by cbv
  have hreach : Reachable
      ⟨{ repeats := .times 3, start := 10, extent := .finite 4, delay := 8 },
        6, 14, 3, .done, false⟩ := ⟨_, _, _, hrun⟩
  have h := perform_truthful hreach
  exact ⟨_, hreach, rfl, rfl, rfl, rfl, h, (h.silent_iff (.seek 9) (by simp)).mp (by decide),
    by decide, h.rewind_new (by decide)⟩

end Player

end Playhead

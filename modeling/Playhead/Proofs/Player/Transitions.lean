import Playhead.Proofs.Player.Window

/-!
# Changes of the lifecycle

`Player.Changes` is the table of all changes of the lifecycle, one row for each way from one state
to another; `Coherent.changes_iff` says that actions change the lifecycle by the rows of this table
and that every row is taken. `Player.Reports` is the table of reports: what each of them tells about
the player before and after the advance that made it.
-/

namespace Playhead

/-- Where a command leads that has an effect. That of a seek depends on where it lands. -/
def Command.aim? : Command → Option Lifecycle
  | .play => some .playing
  | .pause | .rewind | .clearRepeat => some .idle
  | .finish => some .done
  | .seek _ => none

theorem exists_finite_of_ne_unbounded {e : Extent} (h : e ≠ .unbounded) :
    ∃ length, e = .finite length := by
  cases e with
  | finite length => exact ⟨length, rfl⟩
  | unbounded => exact absurd rfl h

namespace Player

variable {p q : Player} {a : Action} {reply : Reply} {l : Lifecycle}

/-- The table of changes: the lifecycle to which an action with its reply takes a player. -/
inductive Changes (p : Player) : Action → Reply → Lifecycle → Prop where
  | play (hidle : p.lifecycle = .idle) : Changes p (.command .play) (.acted true) .playing
  | pause (hplaying : p.lifecycle = .playing) : Changes p (.command .pause) (.acted true) .idle
  | rewind (hplaying : p.lifecycle = .playing) : Changes p (.command .rewind) (.acted true) .idle
  | finish (hactive : p.isEnded = false) : Changes p (.command .finish) (.acted true) .done
  /-- A seek onto the end of the last pass. -/
  | land {offset : Int} {passes : Fin UInt32.size} (hactive : p.isEnded = false)
      (hend : p.params.last? = some (p.seekTarget offset))
      (hrepeats : p.params.repeats = .times passes) (hplays : p.plays + 1 = passes.val) :
      Changes p (.command (.seek offset)) (.acted true) .done
  | complete {budget elapsed : Nat} {length : Millis} (hplaying : p.lifecycle = .playing)
      (hext : p.params.extent = .finite length) :
      Changes p (.advance budget) (.reported ⟨.trackDone, elapsed⟩) .done
  | crash {budget elapsed : Nat} {limit : Millis} (hplaying : p.lifecycle = .playing)
      (hlimit : p.params.failAfter = some limit) :
      Changes p (.advance budget) (.reported ⟨.trackFail, elapsed⟩) .failed
  | rewindDone {length : Millis} (hdone : p.lifecycle = .done)
      (hext : p.params.extent = .finite length) :
      Changes p (.command .rewind) (.acted true) .idle
  | seekBack {offset : Int} (hdone : p.lifecycle = .done) :
      Changes p (.command (.seek offset)) (.acted true) .idle
  | clearRepeat (hdone : p.lifecycle = .done) :
      Changes p (.command .clearRepeat) (.acted true) .idle

/-- The table of reports: what a report of an advance by `budget` tells about the player. -/
inductive Reports (p : Player) (budget : Nat) : Report → Player → Prop where
  | update {q : Player} (hkept : q.lifecycle = p.lifecycle) :
      Reports p budget ⟨.timeUpdate, budget⟩ q
  | ready {q : Player} {elapsed : Nat} (hkept : q.lifecycle = p.lifecycle)
      (hposition : q.position = p.position) (hplays : q.plays = p.plays) :
      Reports p budget ⟨.trackReady, elapsed⟩ q
  | done {q : Player} {elapsed : Nat} {length : Millis} (hplaying : p.lifecycle = .playing)
      (hext : p.params.extent = .finite length) (hdone : q.lifecycle = .done) :
      Reports p budget ⟨.trackDone, elapsed⟩ q
  | fail {q : Player} {elapsed : Nat} {limit : Millis} (hplaying : p.lifecycle = .playing)
      (hlimit : p.params.failAfter = some limit) (hfailed : q.lifecycle = .failed) :
      Reports p budget ⟨.trackFail, elapsed⟩ q
  | idle (hidle : p.lifecycle = .idle) : Reports p budget ⟨.noReport, budget⟩ p
  | ended (hended : p.isEnded = true) : Reports p budget ⟨.noReport, 0⟩ p

theorem Changes.ne (h : p.Changes a reply l) : l ≠ p.lifecycle := by
  intro hsame
  cases h <;> simp_all [isEnded, Lifecycle.isEnded]

/-! ## Commands -/

theorem act_command_eq_some_iff {c : Command} :
    p.act (.command c) = some (reply, q) ↔
      reply = .acted (p.perform c).2 ∧ (p.perform c).1 = q := by
  rw [act_command, Option.some.injEq, Prod.mk.injEq, eq_comm (a := reply)]

theorem changes_play (h : p.play.1.lifecycle ≠ p.lifecycle) :
    p.Changes (.command .play) (.acted p.play.2) p.play.1.lifecycle := by
  unfold Player.play at h ⊢
  split at h
  · next hidle =>
    rw [if_pos hidle]
    exact .play hidle
  · exact absurd rfl h

theorem changes_pause (h : p.pause.1.lifecycle ≠ p.lifecycle) :
    p.Changes (.command .pause) (.acted p.pause.2) p.pause.1.lifecycle := by
  unfold Player.pause at h ⊢
  split at h
  · next hplaying =>
    rw [if_pos hplaying]
    exact .pause hplaying
  · exact absurd rfl h

theorem changes_rewind (h : p.rewind.1.lifecycle ≠ p.lifecycle) :
    p.Changes (.command .rewind) (.acted p.rewind.2) p.rewind.1.lifecycle := by
  unfold Player.rewind at h ⊢
  split at h
  · next hmoves =>
    rw [if_pos hmoves]
    simp only [canRewind, Bool.and_eq_true] at hmoves
    cases hl : p.lifecycle with
    | idle => exact absurd hl.symm h
    | playing => exact .rewind hl
    | done =>
      -- Live content that was finished cannot be rewound.
      obtain ⟨length, hext⟩ := exists_finite_of_ne_unbounded (by simpa [hl] using hmoves.1)
      exact .rewindDone hl hext
    | failed => simp [hl] at hmoves
  · exact absurd rfl h

theorem changes_finish (h : p.finish.1.lifecycle ≠ p.lifecycle) :
    p.Changes (.command .finish) (.acted p.finish.2) p.finish.1.lifecycle := by
  unfold Player.finish at h ⊢
  split at h
  · exact absurd rfl h
  · next hactive =>
    rw [if_neg hactive]
    exact .finish (Bool.eq_false_iff.mpr hactive)

theorem changes_clearRepeat (h : p.clearRepeat.1.lifecycle ≠ p.lifecycle) :
    p.Changes (.command .clearRepeat) (.acted p.clearRepeat.2) p.clearRepeat.1.lifecycle := by
  unfold Player.clearRepeat at h ⊢
  split at h
  · exact absurd rfl h
  · next hfailed =>
    split at h
    · next hreopens =>
      rw [if_neg hfailed, if_pos hreopens]
      simp only [Bool.and_eq_true, decide_eq_true_eq] at hreopens
      exact .clearRepeat hreopens.1
    · exact absurd rfl h

theorem Coherent.succ_plays_eq (h : p.Coherent) (hdone : p.lifecycle ≠ .done)
    (hover : p.params.repeats.allowsAnother (capPlays (p.plays + 1)) = false) :
    ∃ passes, p.params.repeats = .times passes ∧ p.plays + 1 = passes.val := by
  cases hrepeats : p.params.repeats with
  | forever => simp [hrepeats, Repeat.allowsAnother] at hover
  | times passes =>
    have hlt := h.plays_lt_passes passes hrepeats hdone
    have hmax := Nat.le_sub_one_of_lt passes.isLt
    rw [capPlays_of_le (Nat.le_trans hlt hmax), hrepeats] at hover
    have hle : ¬p.plays + 1 < passes.val := of_decide_eq_false hover
    exact ⟨passes, rfl, by omega⟩

inductive Seeks (p : Player) (offset : Int) : Player × Bool → Prop where
  | still (hstill : p.lifecycle = .failed ∨ p.seekTarget offset = p.position) :
      Seeks p offset (p, false)
  | land (hfailed : p.lifecycle ≠ .failed) (hmoves : p.seekTarget offset ≠ p.position)
      (hend : p.params.last? = some (p.seekTarget offset))
      (hover : p.params.repeats.allowsAnother (capPlays (p.plays + 1)) = false) :
      Seeks p offset
        ({ p with position := p.seekTarget offset, plays := p.exhausted, lifecycle := .done }, true)
  | back (hdone : p.lifecycle = .done) (hmoves : p.seekTarget offset ≠ p.position)
      (hinside : p.params.last? = some (p.seekTarget offset) →
        p.params.repeats.allowsAnother (capPlays (p.plays + 1)) = true) :
      Seeks p offset
        ({ p with position := p.seekTarget offset, plays := p.plays - 1, lifecycle := .idle }, true)
  | move (hactive : p.isEnded = false) (hmoves : p.seekTarget offset ≠ p.position)
      (hinside : p.params.last? = some (p.seekTarget offset) →
        p.params.repeats.allowsAnother (capPlays (p.plays + 1)) = true) :
      Seeks p offset ({ p with position := p.seekTarget offset }, true)

theorem seeks_seek (p : Player) (offset : Int) : p.Seeks offset (p.seek offset) := by
  unfold Player.seek
  simp only
  split
  · next hstill => exact .still (by simpa using hstill)
  · next hmoves =>
    simp only [Bool.or_eq_true, decide_eq_true_eq, beq_iff_eq, not_or] at hmoves
    split
    · next hland =>
      simp only [Params.isLast, Bool.and_eq_true, beq_iff_eq, Bool.not_eq_true'] at hland
      exact .land hmoves.1 hmoves.2 hland.1 hland.2
    · next hinside =>
      have hinside : p.params.last? = some (p.seekTarget offset) →
          p.params.repeats.allowsAnother (capPlays (p.plays + 1)) = true := by
        simpa [Params.isLast] using hinside
      split
      · next hdone => exact .back hdone hmoves.2 hinside
      · next hdone =>
        refine .move ?_ hmoves.2 hinside
        cases hl : p.lifecycle <;> simp_all [isEnded, Lifecycle.isEnded]

/-- A finished track is at its end, so no seek that moves it lands there. -/
theorem Coherent.last?_ne_of_done (h : p.Coherent) (hdone : p.lifecycle = .done) {x : Nat}
    (hmoves : x ≠ p.position) : p.params.last? ≠ some x := by
  intro hend
  have hrest := h.position_of_done hdone
  rw [hend, Option.getD_some] at hrest
  exact hmoves hrest.symm

theorem Coherent.changes_seek (h : p.Coherent) {offset : Int}
    (hne : (p.seek offset).1.lifecycle ≠ p.lifecycle) :
    p.Changes (.command (.seek offset)) (.acted (p.seek offset).2) (p.seek offset).1.lifecycle := by
  have hseek := p.seeks_seek offset
  generalize p.seek offset = result at hseek hne ⊢
  cases hseek with
  | still hstill => exact absurd rfl hne
  | land hfailed hmoves hend hover =>
    -- Landing changes nothing for a finished track; any other is in its last pass.
    have hdone : p.lifecycle ≠ .done := fun hdone => hne hdone.symm
    obtain ⟨passes, hrepeats, hplays⟩ := h.succ_plays_eq hdone hover
    refine .land ?_ hend hrepeats hplays
    cases hl : p.lifecycle <;> simp_all [isEnded, Lifecycle.isEnded]
  | back hdone hmoves hinside => exact .seekBack hdone
  | move hactive hmoves hinside => exact absurd rfl hne

theorem Coherent.changes_perform (h : p.Coherent) (c : Command)
    (hne : (p.perform c).1.lifecycle ≠ p.lifecycle) :
    p.Changes (.command c) (.acted (p.perform c).2) (p.perform c).1.lifecycle := by
  cases c with
  | play => exact changes_play hne
  | pause => exact changes_pause hne
  | rewind => exact changes_rewind hne
  | finish => exact changes_finish hne
  | clearRepeat => exact changes_clearRepeat hne
  | seek offset => exact h.changes_seek hne

/-! ## Time -/

/-- A walk ends its track only over a window with an end, and crashes it only at a limit. -/
theorem cause_of_walk {folding : Bool} {left spent : Nat} {report : Report}
    (h : p.walk folding left spent = some (report, q)) :
    (report.event = .trackDone → ∃ length, p.params.extent = .finite length) ∧
      (report.event = .trackFail → ∃ limit, p.params.failAfter = some limit) := by
  refine walk_induction (I := fun r _ _ => r.params = p.params)
    (Q := fun report _ => (report.event = .trackDone → ∃ length, p.params.extent = .finite length) ∧
      (report.event = .trackFail → ∃ limit, p.params.failAfter = some limit)) ?_ ?_ rfl h
  · rintro r s left spent cost hr hturn
    obtain ⟨-, -, hparams, -⟩ := lap_of_turn hturn
    exact hparams.trans hr
  · rintro r s left spent report hr hturn
    cases turn_eq_iff.mp hturn with
    | fail hfail =>
      obtain ⟨limit, hlimit, -⟩ := failure?_eq_some_iff.mp hfail
      exact ⟨by simp, fun _ => ⟨limit, hr ▸ hlimit⟩⟩
    | done hfail hlast hreach hover =>
      exact ⟨fun _ => hr ▸ Params.exists_finite_of_last? hlast, by simp⟩
    | drift => simp

theorem reports_advance {budget : Nat} {report : Report}
    (h : p.advance budget = some (report, q)) : p.Reports budget report q := by
  cases advance_eq_iff.mp h with
  | ended hended => exact .ended hended
  | buffer => exact .update rfl
  | ready => exact .ready rfl rfl rfl
  | idle hidle => exact .idle hidle
  | skip hplaying hdue hready hempty =>
    obtain ⟨length, hext⟩ := Params.exists_finite_of_last? (Params.last?_of_isEmpty hempty)
    exact .done hplaying hext rfl
  | walk hplaying hdue hready hwindow hwalk =>
    obtain ⟨hfinite, hlimit⟩ := cause_of_walk hwalk
    cases ends_of_walk hwalk with
    | update hkept =>
      rw [Nat.zero_add]
      exact .update hkept
    | done _ hdone =>
      obtain ⟨length, hext⟩ := hfinite rfl
      exact .done hplaying hext hdone
    | fail _ hfailed =>
      obtain ⟨limit, hlimit⟩ := hlimit rfl
      exact .fail hplaying hlimit hfailed

theorem reports_act {report : Report} (hact : p.act a = some (.reported report, q)) :
    ∃ budget, a = .advance budget ∧ p.Reports budget report q := by
  cases a with
  | command c => cases hact
  | advance budget =>
    obtain ⟨report', hadvance, heq⟩ := act_advance_eq_some_iff.mp hact
    cases heq
    exact ⟨budget, rfl, reports_advance hadvance⟩

/-! ## The table -/

/-- Whatever changes the lifecycle is in the table. -/
theorem Coherent.changes_act (h : p.Coherent) (hact : p.act a = some (reply, q))
    (hne : q.lifecycle ≠ p.lifecycle) : p.Changes a reply q.lifecycle := by
  cases a with
  | command c =>
    rw [act_command] at hact
    cases hact
    exact h.changes_perform c hne
  | advance budget =>
    obtain ⟨report, hadvance, rfl⟩ := act_advance_eq_some_iff.mp hact
    cases reports_advance hadvance with
    | update hkept => exact absurd hkept hne
    | ready hkept => exact absurd hkept hne
    | done hplaying hext hdone => exact hdone ▸ .complete hplaying hext
    | fail hplaying hlimit hfailed => exact hfailed ▸ .crash hplaying hlimit
    | idle => exact absurd rfl hne
    | ended => exact absurd rfl hne

theorem lifecycle_of_effect {c : Command} (haim : c.aim? = some l)
    (heffect : (p.perform c).2 = true) : (p.perform c).1.lifecycle = l := by
  cases c with
  | seek offset => cases haim
  | _ =>
    simp only [Command.aim?, Option.some.injEq] at haim
    subst haim
    simp only [perform, Player.play, Player.pause, Player.rewind, Player.finish,
      Player.clearRepeat] at heffect ⊢
    grind

theorem lifecycle_of_land {offset : Int} {passes : Fin UInt32.size} (hactive : p.isEnded = false)
    (hend : p.params.last? = some (p.seekTarget offset))
    (hrepeats : p.params.repeats = .times passes) (hplays : p.plays + 1 = passes.val)
    (heffect : (p.seek offset).2 = true) : (p.seek offset).1.lifecycle = .done := by
  have hseek := p.seeks_seek offset
  generalize p.seek offset = result at hseek heffect ⊢
  cases hseek with
  | still => cases heffect
  | land => rfl
  | back hdone => simp [isEnded_of_done hdone] at hactive
  | move _ _ hinside =>
    have hmore := hinside hend
    have hmax := Nat.le_sub_one_of_lt passes.isLt
    rw [hplays, capPlays_of_le hmax, hrepeats] at hmore
    exact absurd (of_decide_eq_true hmore) (Nat.lt_irrefl _)

/-- A seek to where the play head is does nothing. -/
theorem seek_of_still {offset : Int} (h : p.seekTarget offset = p.position) :
    p.seek offset = (p, false) := by
  have hseek := p.seeks_seek offset
  generalize p.seek offset = result at hseek ⊢
  cases hseek with
  | still => rfl
  | land _ hmoves => exact absurd h hmoves
  | back _ hmoves => exact absurd h hmoves
  | move _ hmoves => exact absurd h hmoves

/-- A seek that moves a finished track takes it back into a pass. -/
theorem Coherent.seek_of_done (h : p.Coherent) {offset : Int} (hdone : p.lifecycle = .done)
    (hmoves : p.seekTarget offset ≠ p.position) :
    p.seek offset = ({ p with
      position := p.seekTarget offset
      plays := p.plays - 1
      lifecycle := .idle }, true) := by
  have hseek := p.seeks_seek offset
  generalize p.seek offset = result at hseek ⊢
  cases hseek with
  | still hstill => simp [hdone, hmoves] at hstill
  | land _ _ hend => exact absurd hend (h.last?_ne_of_done hdone hmoves)
  | back => rfl
  | move hactive => simp [isEnded_of_done hdone] at hactive

theorem Coherent.lifecycle_of_seekBack (h : p.Coherent) {offset : Int} (hdone : p.lifecycle = .done)
    (heffect : (p.seek offset).2 = true) : (p.seek offset).1.lifecycle = .idle := by
  have hmoves : p.seekTarget offset ≠ p.position := by
    intro hstill
    rw [seek_of_still hstill] at heffect
    cases heffect
  rw [h.seek_of_done hdone hmoves]

/-- Whatever is in the table happens. -/
theorem Coherent.lifecycle_of_changes (h : p.Coherent) (hchange : p.Changes a reply l)
    (hact : p.act a = some (reply, q)) : q.lifecycle = l := by
  cases hchange with
  | play | pause | rewind | finish | rewindDone | clearRepeat =>
    obtain ⟨heffect, rfl⟩ := act_command_eq_some_iff.mp hact
    exact lifecycle_of_effect rfl (Reply.acted.inj heffect).symm
  | land hactive hend hrepeats hplays =>
    obtain ⟨heffect, rfl⟩ := act_command_eq_some_iff.mp hact
    exact lifecycle_of_land hactive hend hrepeats hplays (Reply.acted.inj heffect).symm
  | complete =>
    obtain ⟨budget, -, hreports⟩ := reports_act hact
    cases hreports with
    | done hplaying hext hdone => exact hdone
  | crash =>
    obtain ⟨budget, -, hreports⟩ := reports_act hact
    cases hreports with
    | fail hplaying hlimit hfailed => exact hfailed
  | seekBack hdone =>
    obtain ⟨heffect, rfl⟩ := act_command_eq_some_iff.mp hact
    exact h.lifecycle_of_seekBack hdone (Reply.acted.inj heffect).symm

theorem Coherent.changes_iff (h : p.Coherent) (hact : p.act a = some (reply, q)) :
    p.Changes a reply l ↔ q.lifecycle = l ∧ l ≠ p.lifecycle := by
  constructor
  · intro hchange
    exact ⟨h.lifecycle_of_changes hchange hact, hchange.ne⟩
  · rintro ⟨rfl, hne⟩
    exact h.changes_act hact hne

/-- Live content is done only when it is made so. -/
theorem Changes.eq_finish (h : p.Changes a reply .done) (hlive : p.params.extent = .unbounded) :
    a = .command .finish := by
  cases h with
  | finish => rfl
  | land hactive hend =>
    obtain ⟨length, hext⟩ := Params.exists_finite_of_last? hend
    rw [hlive] at hext
    cases hext
  | complete hplaying hext =>
    rw [hlive] at hext
    cases hext

theorem trackDone_ne_of_unbounded {elapsed : Nat} (hlive : p.params.extent = .unbounded) :
    p.act a ≠ some (.reported ⟨.trackDone, elapsed⟩, q) := by
  intro hact
  obtain ⟨budget, -, hreports⟩ := reports_act hact
  cases hreports with
  | done hplaying hext =>
    rw [hlive] at hext
    cases hext

/-- The lifecycle changes by the rows of the table and by no others, every report tells the truth
about the player before and after it, and live content never reports its end and is done only when
it is made so. -/
theorem act_by_table (hreach : p.Reachable) (hact : p.act a = some (reply, q)) :
    (∀ l, p.Changes a reply l ↔ q.lifecycle = l ∧ l ≠ p.lifecycle) ∧
    (∀ budget report, a = .advance budget → reply = .reported report →
      p.Reports budget report q) ∧
    (p.params.extent = .unbounded →
      (∀ elapsed, reply ≠ .reported ⟨.trackDone, elapsed⟩) ∧
      (p.lifecycle ≠ .done → q.lifecycle = .done → a = .command .finish)) := by
  have hcoherent := hreach.coherent
  refine ⟨fun l => hcoherent.changes_iff hact, ?_, ?_⟩
  · rintro budget report rfl rfl
    obtain ⟨budget, heq, hreports⟩ := reports_act hact
    cases heq
    exact hreports
  · intro hlive
    constructor
    · rintro elapsed rfl
      exact trackDone_ne_of_unbounded hlive hact
    · intro hbefore hafter
      have hchange := (hcoherent.changes_iff hact).mpr ⟨hafter, hbefore.symm⟩
      exact hchange.eq_finish hlive

/-- A player in its last pass whose play head is sent behind the end of its window. -/
theorem act_by_table_of_landing :
    ∃ p q : Player, p.Reachable ∧ p.lifecycle = .playing ∧
      p.act (.command (.seek 9)) = some (.acted true, q) ∧ q.lifecycle = .done ∧
      p.Changes (.command (.seek 9)) (.acted true) .done := by
  have hrun : (new { start := 10, extent := .finite 4 }).run [.command .play, .advance 2] =
      some ([.acted true, .reported ⟨.trackReady, 0⟩],
        ⟨{ start := 10, extent := .finite 4 }, 0, 10, 0, .playing, true⟩) := by cbv
  have hreach : Reachable ⟨{ start := 10, extent := .finite 4 }, 0, 10, 0, .playing, true⟩ :=
    ⟨_, _, _, hrun⟩
  have hact : Player.act ⟨{ start := 10, extent := .finite 4 }, 0, 10, 0, .playing, true⟩
      (.command (.seek 9)) = some (.acted true,
        ⟨{ start := 10, extent := .finite 4 }, 0, 14, 1, .done, true⟩) := by cbv
  obtain ⟨htable, -, -⟩ := act_by_table hreach hact
  exact ⟨_, _, hreach, rfl, hact, rfl, (htable .done).mpr ⟨rfl, by decide⟩⟩

end Player

end Playhead

import Playhead.Proofs.Player.Accounting
import Playhead.Proofs.Player.Buffering
import Playhead.Proofs.Player.Landing

/-!
# Limits of endless tracks

An endless track that is only played, paused and given time crashes at its failure limit, as long
as the passes before the limit can be counted (`OnTime.run`). The counter of passes stops at the
largest count, and the content time that the player can tell stops with it: a limit behind the last
pass that is told apart is never met (`Looping.run_of_beyond`).
-/

namespace Playhead

/-- Content time that replies account for: what is spent once readiness was reported. -/
def playedBy : List Reply → Nat
  | [] => 0
  | reply :: rest => if reply.event? = some .trackReady then spentBy rest else playedBy rest

namespace Player

variable {p q : Player} {length limit : Millis} {budget : Nat} {report : Report}

/-- An endless track with a window and a failure limit that is not finished. -/
structure Looping (length limit : Millis) (p : Player) : Prop where
  coherent : p.Coherent
  extent_eq : p.params.extent = .finite length
  length_pos : 0 < length.val
  fits : p.params.Fits
  repeats_eq : p.params.repeats = .forever
  limit_eq : p.params.failAfter = some limit
  not_done : p.lifecycle ≠ .done

/-- Content time that an endless track with a limit has played: short of the limit, unless it has
only begun, until it crashes at exactly the limit. -/
structure OnTime (limit : Millis) (p : Player) : Prop where
  before : p.lifecycle ≠ .failed → p.heard = 0 ∨ p.heard < limit.val
  failed : p.lifecycle = .failed → p.heard = limit.val

/-- Play and pause only make the track idle or make it play. -/
theorem rests_of_command {c : Command} (hc : (Action.command c).leavesHead = true)
    (hdone : p.lifecycle ≠ .done) :
    (p.perform c).1.heard = p.heard ∧ (p.perform c).1.lifecycle ≠ .done ∧
      ((p.perform c).1.lifecycle = .failed ↔ p.lifecycle = .failed) := by
  cases c with
  | play =>
    simp only [perform, play]
    split
    · next hidle => exact ⟨rfl, by simp, by simp [hidle]⟩
    · exact ⟨rfl, hdone, Iff.rfl⟩
  | pause =>
    simp only [perform, pause]
    split
    · next hplaying => exact ⟨rfl, by simp, by simp [hplaying]⟩
    · exact ⟨rfl, hdone, Iff.rfl⟩
  | rewind => cases hc
  | finish => cases hc
  | clearRepeat => cases hc
  | seek offset => cases hc

namespace Looping

variable (h : p.Looping length limit)

include h in
theorem window_eq : p.params.window = length.val := Params.window_eq h.extent_eq

include h in
theorem horizon_eq : p.params.horizon = UInt32.size * length.val := by
  rw [Params.horizon, h.repeats_eq, h.window_eq]
  rfl

include h in
theorem isEmpty_eq : p.params.extent.isEmpty = false :=
  Params.isEmpty_of_pos h.extent_eq h.length_pos

include h in
theorem underway (hplaying : p.lifecycle = .playing) (hready : p.announced = true) :
    p.Underway length :=
  ⟨h.coherent, hplaying, hready, h.extent_eq, h.length_pos, h.fits⟩

include h in
/-- Everything else than an advance of the playing track leaves content time alone. -/
theorem rests_or_lands {a : Action} {reply : Reply} (ha : a.leavesHead = true)
    (hact : p.act a = some (reply, q)) :
    (q.heard = p.heard ∧ (p.announced = true → reply.spent = 0) ∧ q.lifecycle ≠ .done ∧
      (q.lifecycle = .failed ↔ p.lifecycle = .failed)) ∨
    ∃ budget report, reply = .reported report ∧ p.Underway length ∧ p.Lands budget report q := by
  cases a with
  | command c =>
    obtain ⟨rfl, rfl⟩ := act_command_eq_some_iff.mp hact
    obtain ⟨hheard, hdone, hfailed⟩ := rests_of_command ha h.not_done
    exact .inl ⟨hheard, fun _ => rfl, hdone, hfailed⟩
  | advance budget =>
    obtain ⟨report, hadvance, rfl⟩ := act_advance_eq_some_iff.mp hact
    cases advance_eq_iff.mp hadvance with
    | ended => exact .inl ⟨rfl, fun _ => rfl, h.not_done, Iff.rfl⟩
    | buffer hactive hearly =>
      refine .inl ⟨rfl, fun hready => ?_, h.not_done, Iff.rfl⟩
      have := h.coherent.buffering_of_announced hready
      omega
    | ready hactive hdue hfresh => exact .inl ⟨rfl, by simp [hfresh], h.not_done, Iff.rfl⟩
    | idle => exact .inl ⟨rfl, fun _ => rfl, h.not_done, Iff.rfl⟩
    | skip _ _ _ hempty => simp [h.isEmpty_eq] at hempty
    | walk hplaying hdue hready hwindow hwalk =>
      have hp := h.underway hplaying hready
      exact .inr ⟨budget, report, rfl, hp, hp.lands_of_advance hadvance⟩

include h in
theorem act {a : Action} {reply : Reply} (ha : a.leavesHead = true)
    (hact : p.act a = some (reply, q)) : q.Looping length limit := by
  have hparams := act_params hact
  refine ⟨h.coherent.act hact, hparams ▸ h.extent_eq, h.length_pos, hparams ▸ h.fits,
    hparams ▸ h.repeats_eq, hparams ▸ h.limit_eq, ?_⟩
  rcases h.rests_or_lands ha hact with ⟨-, -, hdone, -⟩ | ⟨budget, report, -, hp, hlands⟩
  · exact hdone
  · cases hlands with
    | fail => simp
    | failed => simp
    | done hrepeats => simp [h.repeats_eq] at hrepeats
    | update => exact h.not_done

end Looping

/-! ## Limits that are met -/

theorem heard_of_time {time : Nat} (hplays : time / p.params.window ≤ maxPlays) :
    Player.heard { p with
      position := p.params.start.val + time % p.params.window
      plays := capPlays (time / p.params.window) } = time := by
  simp only [heard]
  rw [capPlays_of_le hplays, Nat.add_sub_cancel_left, Nat.div_add_mod']

/-- A limit that lies within the passes that are told apart is met in time. -/
theorem OnTime.lands (htime : p.OnTime limit) (h : p.Looping length limit)
    (hp : p.Underway length) (hwithin : limit.val ≤ p.params.horizon)
    (hlands : p.Lands budget report q) :
    q.OnTime limit ∧ q.heard = p.heard + report.elapsed := by
  have hbefore := htime.before (by simp [hp.playing])
  cases hlands with
  | @fail limit' hlimit' hwithin' hahead hreach =>
    cases h.limit_eq.symm.trans hlimit'
    have hheard : Player.heard { p with
        position := p.params.start.val + (limit.val - 1) % p.params.window + 1
        plays := (limit.val - 1) / p.params.window
        lifecycle := .failed } = limit.val := by
      have := Nat.div_add_mod' (limit.val - 1) p.params.window
      simp only [heard]
      omega
    refine ⟨⟨by simp, fun _ => hheard⟩, ?_⟩
    rw [hheard]
    exact (Nat.add_sub_cancel' (Nat.le_of_lt hahead)).symm
  | @failed limit' hlimit' hbehind =>
    -- Nothing has been played, so this is the limit of a track that crashes at once.
    cases h.limit_eq.symm.trans hlimit'
    refine ⟨⟨by simp, fun _ => ?_⟩, rfl⟩
    change p.heard = limit.val
    omega
  | done hrepeats => simp [h.repeats_eq] at hrepeats
  | update hroom hlimits =>
    have hlt := hlimits limit h.limit_eq hwithin
    have hplays : (p.heard + budget) / p.params.window ≤ maxPlays := by
      have hlt := Nat.lt_of_lt_of_le hlt (Nat.le_trans hwithin p.params.horizon_le)
      exact Nat.le_of_lt_succ ((Nat.div_lt_iff_lt_mul hp.window_pos).mpr hlt)
    have hheard := heard_of_time hplays
    refine ⟨⟨fun _ => .inr ?_, by simp [hp.playing]⟩, hheard⟩
    rwa [hheard]

theorem OnTime.act (htime : p.OnTime limit) (h : p.Looping length limit)
    (hwithin : limit.val ≤ p.params.horizon) {a : Action} {reply : Reply}
    (ha : a.leavesHead = true) (hact : p.act a = some (reply, q)) :
    q.OnTime limit ∧ q.heard = p.heard + if p.announced then reply.spent else 0 := by
  rcases h.rests_or_lands ha hact with
    ⟨hheard, hspent, -, hfailed⟩ | ⟨budget, report, rfl, hp, hlands⟩
  · refine ⟨⟨fun hactive => ?_, fun hf => ?_⟩, ?_⟩
    · rw [hheard]
      exact htime.before (mt hfailed.mpr hactive)
    · rw [hheard]
      exact htime.failed (hfailed.mp hf)
    · split
      · next hready => rw [hspent hready, hheard, Nat.add_zero]
      · exact hheard
  · obtain ⟨hq, hheard⟩ := htime.lands h hp hwithin hlands
    refine ⟨hq, ?_⟩
    rw [hheard, if_pos hp.ready, Reply.spent_reported]
    cases hlands <;> simp

/-- Along a run, content time is what the replies account for. -/
theorem OnTime.run (htime : p.OnTime limit) (h : p.Looping length limit)
    (hwithin : limit.val ≤ p.params.horizon) {actions : List Action} {replies : List Reply}
    (hactions : ∀ a ∈ actions, a.leavesHead = true) (hrun : p.run actions = some (replies, q)) :
    q.OnTime limit ∧
      q.heard = p.heard + if p.announced then spentBy replies else playedBy replies := by
  induction actions generalizing p replies with
  | nil =>
    obtain ⟨rfl, rfl⟩ := run_nil_eq_some_iff.mp hrun
    simp [htime, spentBy, playedBy]
  | cons a rest ih =>
    obtain ⟨reply, r, more, hact, hrest, rfl⟩ := run_cons_eq_some_iff.mp hrun
    have ha := hactions a (List.mem_cons_self ..)
    obtain ⟨hr, hheard⟩ := htime.act h hwithin ha hact
    obtain ⟨hq, hheard'⟩ := ih hr (h.act ha hact) (act_params hact ▸ hwithin)
      (fun b hb => hactions b (List.mem_cons_of_mem _ hb)) hrest
    refine ⟨hq, ?_⟩
    have hready := announced_of_act hact
    rw [hheard', hheard, spentBy, playedBy]
    by_cases hevent : reply.event? = some .trackReady
    · rw [if_pos hevent] at hready
      simp [hready.1, hready.2, hevent]
    · rw [if_neg hevent] at hready
      rw [hready, if_neg hevent]
      split <;> omega

/-- A crash comes when exactly the limit has been played. -/
theorem OnTime.heard_add_elapsed (htime : p.OnTime limit) (h : p.Looping length limit)
    (hwithin : limit.val ≤ p.params.horizon) (hadvance : p.advance budget = some (report, q))
    (hevent : report.event = .trackFail) : p.heard + report.elapsed = limit.val := by
  have hact : p.act (.advance budget) = some (.reported report, q) :=
    act_advance_eq_some_iff.mpr ⟨report, hadvance, rfl⟩
  obtain ⟨hq, hheard⟩ := htime.act h hwithin rfl hact
  have hfailed := failed_of_trackFail hadvance hevent
  have hready : p.announced = true := by
    have hready := announced_of_act hact
    rw [if_neg (by simp [Reply.event?, hevent])] at hready
    rw [← hready]
    exact ((h.coherent.advance hadvance).cause_of_failed hfailed).2
  rw [if_pos hready, Reply.spent_reported (by simp [hevent]), hq.failed hfailed] at hheard
  exact hheard.symm

/-- No advance of the playing track gets past a limit that is met. -/
theorem Looping.trackFail_of_reach (h : p.Looping length limit)
    (hwithin : limit.val ≤ p.params.horizon) (hreach : limit.val ≤ p.heard + budget)
    (hlands : p.Lands budget report q) : report.event = .trackFail := by
  cases hlands with
  | fail => rfl
  | failed => rfl
  | done hrepeats => simp [h.repeats_eq] at hrepeats
  | update hroom hlimits =>
    exact absurd (hlimits limit h.limit_eq hwithin) (Nat.not_lt.mpr hreach)

/-! ## Limits that are never met -/

/-- A limit behind the last pass that is told apart does not stop an advance. -/
theorem Looping.lands_of_beyond (h : p.Looping length limit) (hp : p.Underway length)
    (hbeyond : p.params.horizon < limit.val) (hlands : p.Lands budget report q) :
    report = ⟨.timeUpdate, budget⟩ ∧ q.lifecycle = .playing := by
  cases hlands with
  | @fail limit' hlimit' hwithin =>
    cases h.limit_eq.symm.trans hlimit'
    omega
  | @failed limit' hlimit' hbehind =>
    cases h.limit_eq.symm.trans hlimit'
    have := hp.heard_le_horizon
    omega
  | done hrepeats => simp [h.repeats_eq] at hrepeats
  | update => exact ⟨rfl, hp.playing⟩

theorem Looping.act_of_beyond (h : p.Looping length limit) (hbeyond : p.params.horizon < limit.val)
    {a : Action} {reply : Reply} (ha : a.leavesHead = true) (hact : p.act a = some (reply, q)) :
    (q.lifecycle = .failed ↔ p.lifecycle = .failed) := by
  rcases h.rests_or_lands ha hact with ⟨-, -, -, hfailed⟩ | ⟨budget, report, -, hp, hlands⟩
  · exact hfailed
  · obtain ⟨-, hplaying⟩ := h.lands_of_beyond hp hbeyond hlands
    simp [hplaying, hp.playing]

theorem Looping.run (h : p.Looping length limit) {actions : List Action} {replies : List Reply}
    (hactions : ∀ a ∈ actions, a.leavesHead = true) (hrun : p.run actions = some (replies, q)) :
    q.Looping length limit ∧
      (p.params.horizon < limit.val → (q.lifecycle = .failed ↔ p.lifecycle = .failed)) := by
  induction actions generalizing p replies with
  | nil =>
    obtain ⟨rfl, rfl⟩ := run_nil_eq_some_iff.mp hrun
    exact ⟨h, fun _ => Iff.rfl⟩
  | cons a rest ih =>
    obtain ⟨reply, r, more, hact, hrest, rfl⟩ := run_cons_eq_some_iff.mp hrun
    have ha := hactions a (List.mem_cons_self ..)
    obtain ⟨hq, hfailed⟩ := ih (h.act ha hact) (fun b hb => hactions b (List.mem_cons_of_mem _ hb))
      hrest
    rw [act_params hact] at hfailed
    exact ⟨hq, fun hbeyond => (hfailed hbeyond).trans (h.act_of_beyond hbeyond ha hact)⟩

/-! ## Endless tracks from the start -/

theorem looping_new {params : Params} (hrepeats : params.repeats = .forever)
    (hlimit : params.failAfter = some limit) (hextent : params.extent = .finite length)
    (hlength : 1 ≤ length.val) (hfits : params.Fits) :
    (new params).Looping length limit ∧ (new params).OnTime limit ∧ (new params).heard = 0 := by
  have hheard : (new params).heard = 0 := by simp [new, heard]
  refine ⟨?_, ⟨fun _ => .inl hheard, by simp [new]⟩, hheard⟩
  exact {
    coherent := coherent_new params
    extent_eq := hextent
    length_pos := hlength
    fits := hfits
    repeats_eq := by simp [new, hrepeats, Repeat.atLeastOnce]
    limit_eq := hlimit
    not_done := by simp [new] }

/-- When an endless track with a failure limit that is only played, paused and given time crashes.

A limit that is no later than the end of the last pass that can be counted is met exactly: until
the crash less than the limit has been played, unless playback has only begun, the crash comes with
exactly the limit played, and no advance of the playing track gets past it. A later limit is never
met, whatever is played: every advance of the playing track uses up its budget. -/
theorem run_new_to_limit (params : Params) (length limit : Millis) (actions : List Action)
    (hrepeats : params.repeats = .forever) (hlimit : params.failAfter = some limit)
    (hextent : params.extent = .finite length) (hlength : 1 ≤ length.val)
    (hfits : params.start.val + length.val ≤ lastMillis)
    (hactions : ∀ a ∈ actions, a.leavesHead = true) :
    ∃ replies q, (new params).run actions = some (replies, q) ∧
      (limit.val ≤ UInt32.size * length.val →
        (q.lifecycle ≠ .failed → playedBy replies = 0 ∨ playedBy replies < limit.val) ∧
        (q.lifecycle = .failed → playedBy replies = limit.val) ∧
        ∀ budget, ∃ report r, q.advance budget = some (report, r) ∧
          (report.event = .trackFail → playedBy replies + report.elapsed = limit.val) ∧
          (q.lifecycle = .playing → reported .trackReady replies = true →
            limit.val ≤ playedBy replies + budget → report.event = .trackFail)) ∧
      (UInt32.size * length.val < limit.val →
        q.lifecycle ≠ .failed ∧
        ∀ budget, ∃ report r, q.advance budget = some (report, r) ∧
          report.event ≠ .trackFail ∧
          (q.lifecycle = .playing → reported .trackReady replies = true →
            report = ⟨.timeUpdate, budget⟩)) := by
  have hfits' := Params.fits_of_le hextent hfits
  obtain ⟨hnew, htime, hzero⟩ := looping_new hrepeats hlimit hextent hlength hfits'
  obtain ⟨replies, q, hrun⟩ := exists_run (p := new params) hfits' actions
  obtain ⟨hq, hkept⟩ := hnew.run hactions hrun
  have hready : q.announced = reported .trackReady replies := announced_of_run hrun
  rw [← hnew.horizon_eq]
  refine ⟨replies, q, hrun, ?_, ?_⟩
  · intro hwithin
    obtain ⟨hqtime, hheard⟩ := htime.run hnew hwithin hactions hrun
    rw [hzero, if_neg (by simp [new]), Nat.zero_add] at hheard
    rw [hnew.horizon_eq, ← hq.horizon_eq] at hwithin
    rw [← hheard]
    refine ⟨hqtime.before, hqtime.failed, ?_⟩
    intro budget
    obtain ⟨report, r, hadvance⟩ := exists_advance hq.fits budget
    refine ⟨report, r, hadvance, hqtime.heard_add_elapsed hq hwithin hadvance, ?_⟩
    intro hplaying hreported hreach
    have hp := hq.underway hplaying (hready.trans hreported)
    exact hq.trackFail_of_reach hwithin hreach (hp.lands_of_advance hadvance)
  · intro hbeyond
    have hactive : q.lifecycle ≠ .failed := mt (hkept hbeyond).mp (by simp [new])
    rw [hnew.horizon_eq, ← hq.horizon_eq] at hbeyond
    refine ⟨hactive, ?_⟩
    intro budget
    obtain ⟨report, r, hadvance⟩ := exists_advance hq.fits budget
    refine ⟨report, r, hadvance, ?_, ?_⟩
    · intro hevent
      have hact : q.act (.advance budget) = some (.reported report, r) :=
        act_advance_eq_some_iff.mpr ⟨report, hadvance, rfl⟩
      exact hactive ((hq.act_of_beyond hbeyond rfl hact).mp (failed_of_trackFail hadvance hevent))
    · intro hplaying hreported
      have hp := hq.underway hplaying (hready.trans hreported)
      exact (hq.lands_of_beyond hp hbeyond (hp.lands_of_advance hadvance)).1

/-- A track that buffers for two milliseconds, plays a pass and a half of four with a pause among
them, and crashes at the start of its third pass. -/
theorem run_new_to_limit_of_nine :
    ∃ replies q report r,
      (new { repeats := .forever, failAfter := some 9, extent := .finite 4, delay := 2 }).run
        [.command .play, .advance 3, .advance 6, .command .pause, .advance 5, .command .play] =
          some (replies, q) ∧
      q.lifecycle = .playing ∧ playedBy replies = 6 ∧
      q.advance 100 = some (report, r) ∧ report.event = .trackFail ∧
      playedBy replies + report.elapsed = 9 := by
  have hrun :
      (new { repeats := .forever, failAfter := some 9, extent := .finite 4, delay := 2 }).run
        [.command .play, .advance 3, .advance 6, .command .pause, .advance 5, .command .play] =
      some ([.acted true, .reported ⟨.trackReady, 2⟩, .reported ⟨.timeUpdate, 6⟩, .acted true,
          .reported ⟨.noReport, 5⟩, .acted true],
        ⟨{ repeats := .forever, failAfter := some 9, extent := .finite 4, delay := 2 },
          0, 2, 1, .playing, true⟩) := by cbv
  obtain ⟨replies, q, hsome, hmet, -⟩ := run_new_to_limit
    { repeats := .forever, failAfter := some 9, extent := .finite 4, delay := 2 } 4 9
    [.command .play, .advance 3, .advance 6, .command .pause, .advance 5, .command .play]
    rfl rfl rfl (by decide) (by decide) (by decide)
  rw [hrun] at hsome
  cases hsome
  obtain ⟨-, -, hends⟩ := hmet (by decide)
  obtain ⟨report, r, hadvance, hexact, hcrash⟩ := hends 100
  have hevent := hcrash rfl rfl (by decide)
  exact ⟨_, _, report, r, hrun, rfl, rfl, hadvance, hevent, hexact hevent⟩

/-- A track with passes of one millisecond plays on behind a limit that lies one pass behind the
last that is told apart. -/
theorem run_new_behind_limit :
    ∃ replies q,
      (new { repeats := .forever, failAfter := some 4294967297, extent := .finite 1 }).run
        [.command .play, .advance 0, .advance 4294967298] = some (replies, q) ∧
      q.lifecycle ≠ .failed ∧ 4294967297 < playedBy replies := by
  have hadvance : Player.advance
      ⟨{ repeats := .forever, failAfter := some 4294967297, extent := .finite 1 },
        0, 0, 0, .playing, true⟩ 4294967298 = some (⟨.timeUpdate, 4294967298⟩,
      ⟨{ repeats := .forever, failAfter := some 4294967297, extent := .finite 1 },
        0, 0, 4294967295, .playing, true⟩) := by
    rw [← leap_eq_advance]
    cbv
  refine ⟨[.acted true, .reported ⟨.trackReady, 0⟩, .reported ⟨.timeUpdate, 4294967298⟩],
    ⟨{ repeats := .forever, failAfter := some 4294967297, extent := .finite 1 },
      0, 0, 4294967295, .playing, true⟩, ?_, by decide, by decide⟩
  refine run_cons_eq_some_iff.mpr ⟨.acted true, _, _, rfl, ?_, rfl⟩
  refine run_cons_eq_some_iff.mpr ⟨.reported ⟨.trackReady, 0⟩, _, _, rfl, ?_, rfl⟩
  refine run_cons_eq_some_iff.mpr ⟨.reported ⟨.timeUpdate, 4294967298⟩, _, _, ?_, rfl, rfl⟩
  exact act_advance_eq_some_iff.mpr ⟨_, hadvance, rfl⟩

end Player

end Playhead

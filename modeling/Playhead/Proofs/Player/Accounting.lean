import Playhead.Proofs.Player.Window

/-!
# Where the time goes

A player that is only played, paused and given time spends every reported millisecond on exactly
one thing: buffering or content. `Player.account` is the time that its state accounts for,
`spentBy` the time that its replies account for, and the two agree along every run
(`OnSchedule.run`). The same invariant carries how such a run can end: with a failure exactly when
the failure limit lies within the passes, after exactly the limit, and otherwise with the last
pass, after exactly all passes.
-/

namespace Playhead

/-- Play, pause and advances: actions that leave the play head to time. -/
def Action.leavesHead : Action → Bool
  | .command .play => true
  | .command .pause => true
  | .command _ => false
  | .advance _ => true

/-- Time that a reply accounts for. Time in which nothing could be observed counts for nothing. -/
def Reply.spent : Reply → Nat
  | .acted _ => 0
  | .reported report => if report.event = .noReport then 0 else report.elapsed

theorem Reply.spent_reported {report : Report} (h : report.event ≠ .noReport) :
    (Reply.reported report).spent = report.elapsed := if_neg h

/-- Time that replies account for together. -/
def spentBy : List Reply → Nat
  | [] => 0
  | reply :: rest => reply.spent + spentBy rest

namespace Player

variable {p q : Player} {length : Millis} {passes : Fin UInt32.size}

/-- Time that a player accounts for: buffering and content. A finished track has its last pass in
the counter already. -/
def account (p : Player) : Nat :=
  p.params.delay.val - p.buffering +
    if p.lifecycle = .done then p.plays * p.params.window else p.heard

/-- What holds of a player with a window of `length` and a number of `passes` as long as nothing
but time moves its play head. -/
structure OnSchedule (length : Millis) (passes : Fin UInt32.size) (p : Player) : Prop where
  coherent : p.Coherent
  extent_eq : p.params.extent = .finite length
  length_pos : 0 < length.val
  fits : p.params.Fits
  repeats_eq : p.params.repeats = .times passes
  /-- Until the track ends, its failure limit is not overrun. -/
  heard_le : p.isEnded = false → ∀ limit, p.params.failAfter = some limit → p.heard ≤ limit.val
  /-- A track fails at its limit, which its passes reach. -/
  failed : p.lifecycle = .failed → ∃ limit, p.params.failAfter = some limit ∧
    p.heard = limit.val ∧ limit.val ≤ passes.val * length.val
  /-- A track is done only if its passes do not reach its limit. -/
  done : p.lifecycle = .done → p.buffering = 0 ∧
    ∀ limit, p.params.failAfter = some limit → passes.val * length.val < limit.val

theorem OnSchedule.window_eq (h : p.OnSchedule length passes) : p.params.window = length.val :=
  Params.window_eq h.extent_eq

theorem OnSchedule.last?_eq (h : p.OnSchedule length passes) :
    p.params.last? = some (p.params.start.val + length.val) :=
  h.fits.last?_eq h.extent_eq

theorem OnSchedule.isEmpty_eq (h : p.OnSchedule length passes) :
    p.params.extent.isEmpty = false :=
  Params.isEmpty_of_pos h.extent_eq h.length_pos

/-- The end of the present pass is the content time of one more pass. -/
theorem OnSchedule.heard_add_toEnd (h : p.OnSchedule length passes) :
    p.heard + (p.params.start.val + length.val - p.position) = (p.plays + 1) * length.val := by
  have hstart := h.coherent.start_le_position
  have hend := h.coherent.position_le_last _ h.last?_eq
  rw [heard, h.window_eq, Nat.add_mul]
  omega

theorem OnSchedule.succ_le (h : p.OnSchedule length passes) (hdone : p.lifecycle ≠ .done) :
    p.plays + 1 ≤ maxPlays :=
  Nat.le_trans (h.coherent.plays_lt_passes passes h.repeats_eq hdone)
    (Nat.le_sub_one_of_lt passes.isLt)

/-- The passes that are still allowed reach to the end of the present one. -/
theorem OnSchedule.succ_plays_le (h : p.OnSchedule length passes) (hdone : p.lifecycle ≠ .done) :
    (p.plays + 1) * length.val ≤ passes.val * length.val :=
  Nat.mul_le_mul_right _ (h.coherent.plays_lt_passes passes h.repeats_eq hdone)

theorem account_of_not_done (hdone : p.lifecycle ≠ .done) :
    p.account = p.params.delay.val - p.buffering + p.heard := by
  rw [account, if_neg hdone]

theorem account_of_done (hdone : p.lifecycle = .done) :
    p.account = p.params.delay.val - p.buffering + p.plays * p.params.window := by
  rw [account, if_pos hdone]

theorem account_of_heard {t : Nat} (hp : p.lifecycle ≠ .done) (hq : q.lifecycle ≠ .done)
    (hparams : q.params = p.params) (hbuffering : q.buffering = p.buffering)
    (hheard : q.heard = p.heard + t) : q.account = p.account + t := by
  rw [account_of_not_done hp, account_of_not_done hq, hparams, hbuffering, hheard, Nat.add_assoc]

theorem account_of_buffering {t : Nat} (hp : p.lifecycle ≠ .done) (hq : q.lifecycle ≠ .done)
    (hparams : q.params = p.params) (hheard : q.heard = p.heard)
    (hdelay : p.buffering ≤ p.params.delay.val) (hbuffering : q.buffering + t = p.buffering) :
    q.account = p.account + t := by
  rw [account_of_not_done hp, account_of_not_done hq, hparams, hheard]
  omega

/-! ## Turns -/

theorem OnSchedule.lap (h : p.OnSchedule length passes) (hplaying : p.lifecycle = .playing)
    {left cost : Nat} (hturn : p.turn true left = .lap cost q) :
    q.OnSchedule length passes ∧ q.account = p.account + cost := by
  obtain ⟨hcoherent, -⟩ := h.coherent.lap hplaying hturn
  have hactive : p.lifecycle ≠ .done := by simp [hplaying]
  cases turn_eq_iff.mp hturn with
  | @lap last laps hfail hlast hreach hmore hlaps =>
    -- A number of passes leaves none to be counted at once.
    have hnone : laps = 0 := by
      rw [hlaps, freeLaps_of_times h.repeats_eq, ite_self]
    have hplays : capPlays (capPlays (p.plays + 1) + laps) = p.plays + 1 := by
      rw [hnone, Nat.add_zero, capPlays_of_le (capPlays_le _), capPlays_of_le (h.succ_le hactive)]
    have hbefore := heard_lt_of_reach hfail hlast hreach
    rw [h.last?_eq, Option.some.injEq] at hlast
    subst hlast
    have hpass := h.heard_add_toEnd
    have hheard : Player.heard { p with
        position := p.params.start.val
        plays := capPlays (capPlays (p.plays + 1) + laps) } =
        p.heard + (p.params.start.val + length.val - p.position) := by
      rw [hpass, hplays, heard, Nat.sub_self, Nat.add_zero]
      exact congrArg _ h.window_eq
    constructor
    · exact { h with
        coherent := hcoherent
        heard_le := fun _ limit hlimit => by
          rw [hheard]
          exact Nat.le_of_lt (hbefore limit hlimit)
        failed := by simp [hplaying]
        done := by simp [hplaying] }
    · refine account_of_heard hactive hactive rfl rfl ?_
      rw [hheard, hnone, Nat.zero_mul, Nat.add_zero]

/-- A track that plays on has neither used up its passes nor met its limit. -/
def Ahead (length : Millis) (passes : Fin UInt32.size) (p : Player) : Prop :=
  p.heard < passes.val * length.val ∧
    ∀ limit, p.params.failAfter = some limit → p.heard < limit.val

theorem OnSchedule.heard_move (h : p.OnSchedule length passes) {ahead : Nat}
    (hroom : ahead ≤ p.params.start.val + length.val - p.position) (l : Lifecycle) :
    Player.heard { p with position := capMillis (p.position + ahead), lifecycle := l } =
      p.heard + ahead := by
  have hmax := h.fits length h.extent_eq
  have hstart := h.coherent.start_le_position
  have hend := h.coherent.position_le_last _ h.last?_eq
  rw [capMillis_of_le (by omega)]
  simp only [heard]
  omega

/-- The turn that ends an advance spends what it reports. -/
theorem OnSchedule.stop (h : p.OnSchedule length passes) (hplaying : p.lifecycle = .playing)
    (hready : p.announced = true) {left : Nat} {report : Report}
    (hturn : p.turn true left = .stop report q) :
    q.OnSchedule length passes ∧ q.account = p.account + report.elapsed ∧
      (report.event = .timeUpdate → q.Ahead length passes) := by
  have hcoherent := h.coherent.stop hplaying hready hturn
  have hactive : p.lifecycle ≠ .done := by simp [hplaying]
  have hpass := h.heard_add_toEnd
  have hallowed := h.succ_plays_le hactive
  cases turn_eq_iff.mp hturn with
  | @fail ahead hfail =>
    obtain ⟨limit, hlimit, hahead, -, hroom⟩ := failure?_eq_some_iff.mp hfail
    have hroom := hroom _ h.last?_eq
    have hheard := h.heard_move hroom .failed
    -- The limit is not overrun yet, so what is missing to it is what is heard until it.
    have hle := h.heard_le (isEnded_eq_false_iff.mpr (.inr hplaying)) limit hlimit
    rw [limit_sub_played] at hahead
    refine ⟨{ h with
      coherent := hcoherent
      heard_le := by simp [isEnded, Lifecycle.isEnded]
      failed := fun _ => ⟨limit, hlimit, by rw [hheard]; omega, by omega⟩
      done := by simp }, account_of_heard hactive (by simp) rfl rfl hheard, by simp⟩
  | @done last hfail hlast hreach hover =>
    have hbefore := heard_lt_of_reach hfail hlast hreach
    rw [h.last?_eq, Option.some.injEq] at hlast
    subst hlast
    -- The last pass is the one that makes the counter complete.
    have hplays := hcoherent.plays_of_done rfl h.isEmpty_eq passes h.repeats_eq
    have hbuffered := h.coherent.buffering_of_announced hready
    have hsucc := capPlays_of_le (h.succ_le hactive)
    simp only [hsucc] at hplays
    rw [hplays] at hpass
    refine ⟨{ h with
      coherent := hcoherent
      heard_le := by simp [isEnded, Lifecycle.isEnded]
      failed := by simp
      done := fun _ => ⟨hbuffered, fun limit hlimit => hpass ▸ hbefore limit hlimit⟩ }, ?_, by simp⟩
    rw [account_of_not_done hactive, account_of_done rfl]
    simp only [hsucc, h.window_eq]
    rw [hplays]
    omega
  | drift hfail hshort =>
    have hroom := hshort _ h.last?_eq
    have hbefore := heard_lt_of_drift hfail hshort
    have hheard := h.heard_move (Nat.le_of_lt hroom) p.lifecycle
    refine ⟨{ h with
      coherent := hcoherent
      heard_le := fun _ limit hlimit => by
        rw [hheard]
        exact Nat.le_of_lt (hbefore limit hlimit)
      failed := by simp [hplaying]
      done := by simp [hplaying] },
      account_of_heard hactive hactive rfl rfl hheard, fun _ => ⟨?_, ?_⟩⟩
    · rw [hheard]
      omega
    · intro limit hlimit
      rw [hheard]
      exact hbefore limit hlimit

/-! ## Advances and runs -/

theorem not_done_of_active (h : p.isEnded = false) : p.lifecycle ≠ .done := by
  rcases isEnded_eq_false_iff.mp h with hidle | hplaying
  · simp [hidle]
  · simp [hplaying]

theorem OnSchedule.walk (h : p.OnSchedule length passes) (hplaying : p.lifecycle = .playing)
    (hready : p.announced = true) {left : Nat} {report : Report}
    (hwalk : p.walk true left 0 = some (report, q)) :
    q.OnSchedule length passes ∧ q.account = p.account + report.elapsed ∧
      (report.event = .timeUpdate → q.Ahead length passes) := by
  refine walk_induction
    (I := fun r _ spent => r.OnSchedule length passes ∧ r.lifecycle = .playing ∧
      r.announced = true ∧ r.account = p.account + spent)
    (Q := fun report r => r.OnSchedule length passes ∧ r.account = p.account + report.elapsed ∧
      (report.event = .timeUpdate → r.Ahead length passes))
    ?_ ?_ ⟨h, hplaying, hready, rfl⟩ hwalk
  · rintro r s left spent cost ⟨hr, hplaying, hready, haccount⟩ hturn
    obtain ⟨-, hplaying', hready'⟩ := hr.coherent.lap hplaying hturn
    obtain ⟨hs, haccount'⟩ := hr.lap hplaying hturn
    exact ⟨hs, hplaying', hready'.trans hready, by omega⟩
  · rintro r s left spent report ⟨hr, hplaying, hready, haccount⟩ hturn
    obtain ⟨hs, haccount', hahead⟩ := hr.stop hplaying hready hturn
    exact ⟨hs, by simp only; omega, hahead⟩

/-- An advance spends what it reports. If it reports an update of a ready track, the track is still
ahead of its last pass and of its limit. -/
theorem OnSchedule.advance (h : p.OnSchedule length passes) {budget : Nat} {report : Report}
    (hadvance : p.advance budget = some (report, q)) :
    q.OnSchedule length passes ∧ q.account = p.account + (Reply.reported report).spent ∧
      (report.event = .timeUpdate → q.buffering = 0 → q.Ahead length passes) := by
  have hcoherent := h.coherent.advance hadvance
  cases advance_eq_iff.mp hadvance with
  | ended => exact ⟨h, rfl, by simp⟩
  | buffer hactive hearly =>
    -- The update comes from buffering, which goes on: the track is not ready.
    have hdone := not_done_of_active hactive
    refine ⟨{ h with coherent := hcoherent, done := fun hd => absurd hd hdone },
      account_of_buffering hdone hdone rfl rfl h.coherent.buffering_le_delay
        (Nat.sub_add_cancel (Nat.le_of_lt hearly)), ?_⟩
    simp only
    omega
  | ready hactive hdue hfresh =>
    have hdone := not_done_of_active hactive
    exact ⟨{ h with coherent := hcoherent, done := fun hd => absurd hd hdone },
      account_of_buffering hdone hdone rfl rfl h.coherent.buffering_le_delay (Nat.zero_add _),
      by simp⟩
  | idle => exact ⟨h, rfl, by simp⟩
  | skip hplaying hdue hready hempty =>
    rw [h.isEmpty_eq] at hempty
    cases hempty
  | walk hplaying hdue hready hwindow hwalk =>
    obtain ⟨hq, haccount, hahead⟩ := h.walk hplaying hready hwalk
    refine ⟨hq, ?_, fun hupdate _ => hahead hupdate⟩
    cases ends_of_walk hwalk <;> exact haccount

theorem OnSchedule.switch (h : p.OnSchedule length passes) (hactive : p.isEnded = false)
    {l : Lifecycle} (hl : l = .idle ∨ l = .playing) :
    { p with lifecycle := l : Player }.OnSchedule length passes ∧
      { p with lifecycle := l : Player }.account = p.account := by
  have hdone := not_done_of_active hactive
  have hl' : l ≠ .done := by rcases hl with rfl | rfl <;> simp
  constructor
  · exact { h with
      coherent := h.coherent.switch hdone hl
      heard_le := fun _ => h.heard_le hactive
      failed := by rcases hl with rfl | rfl <;> simp
      done := fun hd => absurd hd hl' }
  · rw [account_of_not_done hdone, account_of_not_done hl']
    rfl

theorem OnSchedule.command (h : p.OnSchedule length passes) {c : Command}
    (hc : (Action.command c).leavesHead = true) :
    (p.perform c).1.OnSchedule length passes ∧ (p.perform c).1.account = p.account := by
  cases c with
  | play =>
    simp only [perform, play]
    split
    · next hidle => exact h.switch (isEnded_eq_false_iff.mpr (.inl hidle)) (.inr rfl)
    · exact ⟨h, rfl⟩
  | pause =>
    simp only [perform, pause]
    split
    · next hplaying => exact h.switch (isEnded_eq_false_iff.mpr (.inr hplaying)) (.inl rfl)
    · exact ⟨h, rfl⟩
  | rewind => cases hc
  | finish => cases hc
  | clearRepeat => cases hc
  | seek offset => cases hc

/-- What replies account for is what the state accounts for in addition. -/
theorem OnSchedule.run (h : p.OnSchedule length passes) {actions : List Action}
    (hactions : ∀ a ∈ actions, a.leavesHead = true) {replies : List Reply}
    (hrun : p.run actions = some (replies, q)) :
    q.OnSchedule length passes ∧ q.account = p.account + spentBy replies := by
  induction actions generalizing p replies with
  | nil =>
    obtain ⟨rfl, rfl⟩ := run_nil_eq_some_iff.mp hrun
    exact ⟨h, rfl⟩
  | cons a rest ih =>
    obtain ⟨reply, r, more, ha, hrest, rfl⟩ := run_cons_eq_some_iff.mp hrun
    have hr : r.OnSchedule length passes ∧ r.account = p.account + reply.spent := by
      cases a with
      | command c =>
        rw [act_command] at ha
        cases ha
        exact h.command (hactions _ (List.mem_cons_self ..))
      | advance budget =>
        obtain ⟨report, hadvance, rfl⟩ := act_advance_eq_some_iff.mp ha
        obtain ⟨hr, haccount, -⟩ := h.advance hadvance
        exact ⟨hr, haccount⟩
    obtain ⟨hq, haccount⟩ := ih hr.1 (fun a ha => hactions a (List.mem_cons_of_mem _ ha)) hrest
    refine ⟨hq, ?_⟩
    rw [haccount, hr.2, spentBy, Nat.add_assoc]

theorem onSchedule_new {params : Params} (hextent : params.extent = .finite length)
    (hlength : 0 < length.val) (hfits : params.Fits)
    (hrepeats : params.repeats.atLeastOnce = .times passes) :
    (new params).OnSchedule length passes ∧ (new params).account = 0 := by
  have hheard : (new params).heard = 0 := by simp [new, heard]
  constructor
  · exact {
      coherent := coherent_new params
      extent_eq := hextent
      length_pos := hlength
      fits := hfits
      repeats_eq := hrepeats
      heard_le := fun _ limit _ => by
        rw [hheard]
        exact Nat.zero_le _
      failed := by simp [new]
      done := by simp [new] }
  · rw [account_of_not_done (by simp [new]), hheard]
    exact Nat.sub_self _

/-! ## Ends -/

theorem OnSchedule.account_of_failed (h : p.OnSchedule length passes)
    (hfailed : p.lifecycle = .failed) :
    ∃ limit, p.params.failAfter = some limit ∧ limit.val ≤ passes.val * length.val ∧
      p.account = p.params.delay.val + limit.val := by
  obtain ⟨limit, hlimit, hheard, hle⟩ := h.failed hfailed
  have hready := (h.coherent.cause_of_failed hfailed).2
  have hbuffered := h.coherent.buffering_of_announced hready
  refine ⟨limit, hlimit, hle, ?_⟩
  rw [account_of_not_done (by simp [hfailed]), hbuffered, hheard, Nat.sub_zero]

theorem OnSchedule.account_of_completed (h : p.OnSchedule length passes)
    (hdone : p.lifecycle = .done) :
    (∀ limit, p.params.failAfter = some limit → passes.val * length.val < limit.val) ∧
      p.account = p.params.delay.val + passes.val * length.val := by
  obtain ⟨hbuffered, hbefore⟩ := h.done hdone
  have hplays := h.coherent.plays_of_done hdone h.isEmpty_eq passes h.repeats_eq
  refine ⟨hbefore, ?_⟩
  rw [account_of_done hdone, hbuffered, hplays, h.window_eq, Nat.sub_zero]

theorem OnSchedule.heard_eq (h : p.OnSchedule length passes) :
    p.heard = p.plays * length.val + (p.position - p.params.start.val) := by
  rw [heard, h.window_eq]

theorem buffering_of_ready (h : p.loading = .ready) : p.buffering = 0 := by
  unfold loading at h
  split at h
  · cases h
  · split at h
    · assumption
    · cases h

/-- Where the time goes when a track with a window that fits is only played, paused and given time.

Until the track is done, the reported time is the buffering that is over and the content that was
played; then the last pass is in the counter already. The track fails if the failure limit lies
within its passes, after the buffering and exactly the limit, and otherwise it is done after the
buffering and exactly its passes. An update never leaves a ready track at either point. -/
theorem spentBy_eq_buffering_add_heard (params : Params) (length : Millis)
    (passes : Fin UInt32.size) (actions : List Action)
    (hextent : params.extent = .finite length) (hlength : 1 ≤ length.val)
    (hfits : params.start.val + length.val ≤ lastMillis)
    (hrepeats : params.repeats.atLeastOnce = .times passes)
    (hactions : ∀ a ∈ actions, a.leavesHead = true) :
    ∃ replies q, (new params).run actions = some (replies, q) ∧
      (q.lifecycle ≠ .done → spentBy replies =
        params.delay.val - q.buffering +
          (q.plays * length.val + (q.position - params.start.val))) ∧
      (q.lifecycle = .done → spentBy replies =
        params.delay.val - q.buffering + q.plays * length.val) ∧
      ∀ budget, ∃ report r, q.advance budget = some (report, r) ∧
        (report.event = .trackFail → ∃ limit, params.failAfter = some limit ∧
          limit.val ≤ passes.val * length.val ∧
          spentBy replies + report.elapsed = params.delay.val + limit.val) ∧
        (report.event = .trackDone →
          (∀ limit, params.failAfter = some limit → passes.val * length.val < limit.val) ∧
          spentBy replies + report.elapsed = params.delay.val + passes.val * length.val) ∧
        (report.event = .timeUpdate → r.loading = .ready →
          r.plays * length.val + (r.position - params.start.val) < passes.val * length.val ∧
          ∀ limit, params.failAfter = some limit →
            r.plays * length.val + (r.position - params.start.val) < limit.val) := by
  have hfits' : params.Fits := fun other hother => by
    rw [hextent, Extent.finite.injEq] at hother
    exact hother ▸ hfits
  obtain ⟨hnew, hzero⟩ := onSchedule_new hextent hlength hfits' hrepeats
  obtain ⟨replies, q, hrun⟩ := exists_run (p := new params) hfits' actions
  obtain ⟨hq, haccount⟩ := hnew.run hactions hrun
  -- The parameters are those of the new player at every moment, and only its repetition differs
  -- from what the player was asked for.
  have hparams : q.params = { params with repeats := params.repeats.atLeastOnce } := run_params hrun
  have hdelay : q.params.delay = params.delay := by rw [hparams]
  have hstart : q.params.start = params.start := by rw [hparams]
  have hlimit : q.params.failAfter = params.failAfter := by rw [hparams]
  rw [hzero, Nat.zero_add] at haccount
  refine ⟨replies, q, hrun, ?_, ?_, ?_⟩
  · intro hdone
    rw [← haccount, account_of_not_done hdone, hdelay, hq.heard_eq, hstart]
  · intro hdone
    rw [← haccount, account_of_done hdone, hdelay, hq.window_eq]
  · intro budget
    obtain ⟨report, r, hadvance⟩ := exists_advance hq.fits budget
    obtain ⟨hr, haccount', hahead⟩ := hq.advance hadvance
    have hkept := advance_params hadvance
    rw [haccount] at haccount'
    refine ⟨report, r, hadvance, ?_, ?_, ?_⟩
    · intro hevent
      have hnews : report.event ≠ .noReport := by simp [hevent]
      have hfailed := failed_of_trackFail hadvance hevent
      obtain ⟨limit, hsome, hle, htotal⟩ := hr.account_of_failed hfailed
      rw [hkept, hlimit] at hsome
      rw [haccount', hkept, hdelay, Reply.spent_reported hnews] at htotal
      exact ⟨limit, hsome, hle, htotal⟩
    · intro hevent
      have hnews : report.event ≠ .noReport := by simp [hevent]
      have hdone := done_of_trackDone hadvance hevent
      obtain ⟨hbefore, htotal⟩ := hr.account_of_completed hdone
      rw [hkept, hlimit] at hbefore
      rw [haccount', hkept, hdelay, Reply.spent_reported hnews] at htotal
      exact ⟨hbefore, htotal⟩
    · intro hevent hready
      obtain ⟨hlt, hbefore⟩ := hahead hevent (buffering_of_ready hready)
      rw [hkept, hlimit] at hbefore
      rw [hr.heard_eq, hkept, hstart] at hlt hbefore
      exact ⟨hlt, hbefore⟩

/-- A track that buffers for two milliseconds, plays a pass and a half of four with a pause among
them, and crashes in its second pass. -/
theorem spentBy_until_crash :
    ∃ replies q report r,
      (new { repeats := .times 2, failAfter := some 7, extent := .finite 4, delay := 2 }).run
        [.command .play, .advance 3, .advance 6, .command .pause, .advance 5, .command .play] =
          some (replies, q) ∧
      q.lifecycle = .playing ∧
      spentBy replies = 2 - q.buffering + (q.plays * 4 + (q.position - 0)) ∧
      q.advance 9 = some (report, r) ∧ report.event = .trackFail ∧
      spentBy replies + report.elapsed = 2 + 7 := by
  have hrun :
      (new { repeats := .times 2, failAfter := some 7, extent := .finite 4, delay := 2 }).run
        [.command .play, .advance 3, .advance 6, .command .pause, .advance 5, .command .play] =
      some ([.acted true, .reported ⟨.trackReady, 2⟩, .reported ⟨.timeUpdate, 6⟩, .acted true,
          .reported ⟨.noReport, 5⟩, .acted true],
        ⟨{ repeats := .times 2, failAfter := some 7, extent := .finite 4, delay := 2 },
          0, 2, 1, .playing, true⟩) := by cbv
  obtain ⟨replies, q, hsome, hactive, -, hends⟩ := spentBy_eq_buffering_add_heard
    { repeats := .times 2, failAfter := some 7, extent := .finite 4, delay := 2 } 4 2
    [.command .play, .advance 3, .advance 6, .command .pause, .advance 5, .command .play]
    rfl (by decide) (by decide) rfl (by decide)
  rw [hrun] at hsome
  cases hsome
  have hcrash : Player.advance
      ⟨{ repeats := .times 2, failAfter := some 7, extent := .finite 4, delay := 2 },
        0, 2, 1, .playing, true⟩ 9 = some (⟨.trackFail, 1⟩,
      ⟨{ repeats := .times 2, failAfter := some 7, extent := .finite 4, delay := 2 },
        0, 3, 1, .failed, true⟩) := by cbv
  obtain ⟨report, r, hadvance, hfail, -⟩ := hends 9
  rw [hcrash] at hadvance
  cases hadvance
  obtain ⟨limit, hlimit, -, htotal⟩ := hfail rfl
  cases hlimit
  exact ⟨_, _, _, _, hrun, rfl, hactive (by decide), hcrash, rfl, htotal⟩

/-- A track that is done has its last pass in the counter and its play head at the end of the
window, and one that was to be played no times at all is played once: what was heard before is not
what was spent then. -/
theorem spentBy_ne_heard_when_done :
    (∃ replies q, (new { repeats := .times 1, extent := .finite 1 }).run
        [.command .play, .advance 0, .advance 1] = some (replies, q) ∧
      spentBy replies ≠ 0 - q.buffering + (q.plays * 1 + (q.position - 0))) ∧
    ∃ replies q, (new { repeats := .times 0, extent := .finite 1 }).run
        [.command .play, .advance 0] = some (replies, q) ∧
      ∃ report r, q.advance 1 = some (report, r) ∧ report.event = .trackDone ∧
        spentBy replies + report.elapsed ≠ 0 + 0 * 1 := by
  constructor
  · refine ⟨[.acted true, .reported ⟨.trackReady, 0⟩, .reported ⟨.trackDone, 1⟩],
      ⟨{ repeats := .times 1, extent := .finite 1 }, 0, 1, 1, .done, true⟩, by cbv, by decide⟩
  · refine ⟨[.acted true, .reported ⟨.trackReady, 0⟩],
      ⟨{ repeats := .times 1, extent := .finite 1 }, 0, 0, 0, .playing, true⟩, by cbv,
      ⟨.trackDone, 1⟩, ⟨{ repeats := .times 1, extent := .finite 1 }, 0, 1, 1, .done, true⟩,
      by cbv, rfl, by decide⟩

end Player

end Playhead

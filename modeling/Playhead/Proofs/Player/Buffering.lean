import Playhead.Proofs.Player.History

/-!
# Buffering

A player knows in two ways whether its track is buffered: by the buffering still to come, and by
whether it has reported readiness. Time takes from the one until the other is reported, no command
touches either, and so the two agree along every run (`run_new_buffering`): what was reported as
elapsed and what is still to come make up the delay of the track, and the load status of a track
with a delay can be told from the replies.
-/

namespace Playhead

/-- Time that a reply reports. -/
def Reply.elapsed : Reply → Nat
  | .acted _ => 0
  | .reported report => report.elapsed

/-- Time that replies report together. -/
def elapsedBy : List Reply → Nat
  | [] => 0
  | reply :: rest => reply.elapsed + elapsedBy rest

/-- Whether an event is among those that replies report. -/
def reported (e : Event) (replies : List Reply) : Bool := replies.any (·.event? == some e)

theorem reported_cons {e : Event} {reply : Reply} {rest : List Reply} :
    reported e (reply :: rest) = (reply.event? == some e || reported e rest) := rfl

namespace Player

variable {p q : Player} {params : Params} {a : Action} {actions : List Action} {reply : Reply}
  {replies pre post : List Reply}

/-! ## Runs and their replies -/

/-- A run passes through the player that gave one of its replies. -/
theorem exists_act_of_run (hrun : p.run actions = some (pre ++ reply :: post, q)) :
    ∃ before a after r s, actions = before ++ a :: after ∧ p.run before = some (pre, r) ∧
      r.act a = some (reply, s) ∧ s.run after = some (post, q) := by
  induction pre generalizing p actions with
  | nil =>
    cases actions with
    | nil => cases (run_nil_eq_some_iff.mp hrun).1
    | cons a after =>
      obtain ⟨reply', s, more, hact, hrest, heq⟩ := run_cons_eq_some_iff.mp hrun
      cases heq
      exact ⟨[], a, after, p, s, rfl, rfl, hact, hrest⟩
  | cons first pre ih =>
    cases actions with
    | nil => cases (run_nil_eq_some_iff.mp hrun).1
    | cons b rest =>
      obtain ⟨reply', p', more, hact, hrest, heq⟩ := run_cons_eq_some_iff.mp hrun
      cases heq
      obtain ⟨before, a, after, r, s, rfl, hbefore, hact', hafter⟩ := ih hrest
      refine ⟨b :: before, a, after, r, s, rfl, ?_, hact', hafter⟩
      exact run_cons_eq_some_iff.mpr ⟨_, p', _, hact, hbefore, rfl⟩

/-- Readiness is kept once it is reported, and comes from nowhere else. -/
theorem announced_of_run (hrun : p.run actions = some (replies, q)) :
    q.announced = (p.announced || reported .trackReady replies) := by
  induction actions generalizing p replies with
  | nil =>
    obtain ⟨rfl, rfl⟩ := run_nil_eq_some_iff.mp hrun
    simp [reported]
  | cons a rest ih =>
    obtain ⟨reply, r, more, hact, hrest, rfl⟩ := run_cons_eq_some_iff.mp hrun
    rw [ih hrest, reported_cons]
    have hready := announced_of_act hact
    by_cases hevent : reply.event? = some .trackReady
    · rw [if_pos hevent] at hready
      simp [hready.2, hevent]
    · rw [if_neg hevent] at hready
      rw [hready, beq_false_of_ne hevent, Bool.false_or]

/-! ## What is still to come -/

theorem perform_buffering (p : Player) (c : Command) :
    (p.perform c).1.buffering = p.buffering := by
  cases c <;>
    simp only [perform, Player.play, Player.pause, Player.rewind, Player.finish, Player.seek,
      Player.clearRepeat] <;>
    grind

/-- Before readiness, what an action reports as elapsed is taken from what is still to come. -/
theorem elapsed_add_buffering (hact : p.act a = some (reply, q)) (hfresh : p.announced = false) :
    reply.elapsed + q.buffering = p.buffering := by
  cases a with
  | command c =>
    obtain ⟨rfl, rfl⟩ := act_command_eq_some_iff.mp hact
    rw [perform_buffering, Reply.elapsed, Nat.zero_add]
  | advance budget =>
    obtain ⟨report, hadvance, rfl⟩ := act_advance_eq_some_iff.mp hact
    cases advance_eq_iff.mp hadvance with
    | ended => exact Nat.zero_add _
    | buffer hactive hearly => exact Nat.add_sub_cancel' (Nat.le_of_lt hearly)
    | ready => exact Nat.add_zero _
    | idle _ _ hready => simp [hfresh] at hready
    | skip _ _ hready => simp [hfresh] at hready
    | walk _ _ hready => simp [hfresh] at hready

/-- Nothing but the report of readiness takes all that is still to come. -/
theorem buffering_pos_of_act (hact : p.act a = some (reply, q))
    (hevent : reply.event? ≠ some .trackReady) (hfresh : p.announced = false)
    (hpos : 0 < p.buffering) : 0 < q.buffering := by
  cases a with
  | command c =>
    obtain ⟨rfl, rfl⟩ := act_command_eq_some_iff.mp hact
    rwa [perform_buffering]
  | advance budget =>
    obtain ⟨report, hadvance, rfl⟩ := act_advance_eq_some_iff.mp hact
    cases advance_eq_iff.mp hadvance with
    | ended => exact hpos
    | buffer hactive hearly => exact Nat.sub_pos_of_lt hearly
    | ready => exact absurd rfl hevent
    | idle _ _ hready => simp [hfresh] at hready
    | skip _ _ hready => simp [hfresh] at hready
    | walk _ _ hready => simp [hfresh] at hready

theorem buffering_of_run (hrun : p.run actions = some (replies, q)) (hfresh : p.announced = false)
    (hnone : reported .trackReady replies = false) :
    elapsedBy replies + q.buffering = p.buffering ∧ (0 < p.buffering → 0 < q.buffering) := by
  induction actions generalizing p replies with
  | nil =>
    obtain ⟨rfl, rfl⟩ := run_nil_eq_some_iff.mp hrun
    exact ⟨Nat.zero_add _, id⟩
  | cons a rest ih =>
    obtain ⟨reply, r, more, hact, hrest, rfl⟩ := run_cons_eq_some_iff.mp hrun
    obtain ⟨hevent, hmore⟩ : reply.event? ≠ some .trackReady ∧
        reported .trackReady more = false := by
      simpa [reported_cons] using hnone
    have hready := announced_of_act hact
    rw [if_neg hevent] at hready
    have hspent := elapsed_add_buffering hact hfresh
    obtain ⟨htotal, hpos⟩ := ih hrest (hready.trans hfresh) hmore
    refine ⟨?_, fun hp => hpos (buffering_pos_of_act hact hevent hfresh hp)⟩
    rw [elapsedBy, Nat.add_assoc, htotal, hspent]

/-- The report of readiness brings the time that was reported to just what was still to come. -/
theorem Coherent.elapsedBy_of_ready {elapsed : Nat} (h : p.Coherent) (hfresh : p.announced = false)
    (hrun : p.run actions = some (pre ++ .reported ⟨.trackReady, elapsed⟩ :: post, q)) :
    elapsedBy pre + elapsed = p.buffering := by
  obtain ⟨before, a, after, r, s, -, hbefore, hact, -⟩ := exists_act_of_run hrun
  obtain ⟨hearly, hready⟩ := ready_of_act hact rfl
  have hearly : r.announced = false := Bool.eq_false_iff.mpr hearly
  have hnone : reported .trackReady pre = false := by
    have hkept := announced_of_run hbefore
    rw [hearly, hfresh, Bool.false_or] at hkept
    exact hkept.symm
  obtain ⟨hpre, -⟩ := buffering_of_run hbefore hfresh hnone
  have hlast : elapsed + s.buffering = r.buffering := elapsed_add_buffering hact hearly
  rw [((h.run hbefore).act hact).buffering_of_announced hready, Nat.add_zero] at hlast
  rw [hlast, hpre]

/-! ## The load status -/

theorem loading_eq_failed_iff : p.loading = .failed ↔ p.lifecycle = .failed := by
  unfold loading
  split
  · next hfailed => exact iff_of_true rfl hfailed
  · next hfailed =>
    refine iff_of_false ?_ hfailed
    split <;> nofun

theorem loading_eq_ready_iff :
    p.loading = .ready ↔ p.buffering = 0 ∧ p.lifecycle ≠ .failed := by
  unfold loading
  split
  · next hfailed => exact iff_of_false nofun fun h => h.2 hfailed
  · next hfailed =>
    split
    · next hzero => exact iff_of_true rfl ⟨hzero, hfailed⟩
    · next hpos => exact iff_of_false nofun fun h => hpos h.1

theorem Coherent.loading_eq_notReady_iff (h : p.Coherent) :
    p.loading = .notReady ↔ p.buffering ≠ 0 := by
  unfold loading
  split
  · next hfailed =>
    -- A track that crashed was ready before.
    have hzero := h.buffering_of_announced (h.cause_of_failed hfailed).2
    exact iff_of_false nofun fun hpos => hpos hzero
  · split
    · next hzero => exact iff_of_false nofun fun hpos => hpos hzero
    · next hpos => exact iff_of_true rfl hpos

/-- However commands and advances are mixed, a new player is buffered by time alone, and once. A
run may stop anywhere, so this holds at every point of it. -/
theorem run_new_buffering (hrun : (new params).run actions = some (replies, q)) :
    (reported .trackReady replies = false →
      elapsedBy replies + q.buffering = params.delay.val) ∧
    (∀ pre elapsed post, replies = pre ++ .reported ⟨.trackReady, elapsed⟩ :: post →
      elapsedBy pre + elapsed = params.delay.val ∧ q.buffering = 0) ∧
    (0 < params.delay.val →
      (q.loading = .notReady ↔ reported .trackReady replies = false) ∧
      (q.loading = .failed ↔ q.lifecycle = .failed) ∧
      (q.loading = .ready ↔
        reported .trackReady replies = true ∧ q.lifecycle ≠ .failed)) := by
  have hcoherent := (coherent_new params).run hrun
  have hready : q.announced = reported .trackReady replies := announced_of_run hrun
  refine ⟨?_, ?_, ?_⟩
  · intro hnone
    exact (buffering_of_run hrun rfl hnone).1
  · rintro pre elapsed post rfl
    refine ⟨(coherent_new params).elapsedBy_of_ready rfl hrun,
      hcoherent.buffering_of_announced ?_⟩
    simp [hready, reported, Reply.event?]
  · intro hdelay
    have hzero : q.buffering = 0 ↔ reported .trackReady replies = true := by
      cases hsome : reported .trackReady replies with
      | true => exact iff_of_true (hcoherent.buffering_of_announced (hready.trans hsome)) rfl
      | false =>
        have hpos := (buffering_of_run hrun rfl hsome).2 hdelay
        exact iff_of_false (Nat.ne_of_gt hpos) Bool.false_ne_true
    refine ⟨?_, loading_eq_failed_iff, ?_⟩
    · rw [hcoherent.loading_eq_notReady_iff, ne_eq, hzero, Bool.not_eq_true]
    · rw [loading_eq_ready_iff, hzero]

/-- A track that is finished during its buffering, and buffered to the end once it is rewound. -/
theorem run_new_buffering_over_finish :
    ∃ q, (new { extent := .finite 4, delay := 5 }).run [.command .play, .advance 2,
        .command .finish, .advance 9, .command .rewind, .advance 7] =
        some ([.acted true, .reported ⟨.timeUpdate, 2⟩, .acted true, .reported ⟨.noReport, 0⟩,
          .acted true, .reported ⟨.trackReady, 3⟩], q) ∧
      elapsedBy [.acted true, .reported ⟨.timeUpdate, 2⟩, .acted true, .reported ⟨.noReport, 0⟩,
        .acted true] + 3 = 5 ∧ q.buffering = 0 ∧ q.loading = .ready := by
  have hrun : (new { extent := .finite 4, delay := 5 }).run [.command .play, .advance 2,
      .command .finish, .advance 9, .command .rewind, .advance 7] =
      some ([.acted true, .reported ⟨.timeUpdate, 2⟩, .acted true, .reported ⟨.noReport, 0⟩,
          .acted true, .reported ⟨.trackReady, 3⟩],
        ⟨{ extent := .finite 4, delay := 5 }, 0, 0, 0, .idle, true⟩) := by cbv
  obtain ⟨-, hready, hloading⟩ := run_new_buffering hrun
  obtain ⟨hspent, hzero⟩ := hready [.acted true, .reported ⟨.timeUpdate, 2⟩, .acted true,
    .reported ⟨.noReport, 0⟩, .acted true] 3 [] rfl
  exact ⟨_, hrun, hspent, hzero, (hloading (by decide)).2.2.mpr ⟨rfl, by decide⟩⟩

end Player

end Playhead

import Playhead.Proofs.Player.History
import Playhead.Proofs.Scenario.Answers
import Playhead.Proofs.Scenario.Replay

/-!
# Time in transcripts

The clocks of entries add up: each is the one before it and the time that its entry stands for, and
the last one is the clock of the runner. A run step spends its budget in chunks. A chunk that spends
less than it may has met a boundary, and only readiness goes on behind one, once; so there is at
most one chunk more than the budget has room for (`Runner.Chunks.length_le`).
-/

namespace Playhead

/-- Chunks that a budget has room for: the last of them may be smaller. -/
def chunksIn (budget chunk : Nat) : Nat := (budget + chunk - 1) / chunk

theorem chunksIn_sub_min {left chunk : Nat} (hleft : left ≠ 0) (hchunk : 1 ≤ chunk) :
    chunksIn (left - min chunk left) chunk + 1 = chunksIn left chunk := by
  obtain ⟨rest, hrest⟩ : ∃ rest, left + chunk - 1 = rest + chunk := ⟨left - 1, by omega⟩
  unfold chunksIn
  rw [hrest, Nat.add_div_right _ hchunk]
  by_cases hfull : chunk ≤ left
  · rw [Nat.min_eq_left hfull, show left - chunk + chunk - 1 = rest by omega]
  · -- The whole of what is left goes into one chunk.
    rw [Nat.min_eq_right (by omega), Nat.div_eq_of_lt (by omega), Nat.div_eq_of_lt (by omega)]

theorem chunksIn_pos {left chunk : Nat} (hleft : left ≠ 0) (hchunk : 1 ≤ chunk) :
    0 < chunksIn left chunk := by
  rw [← chunksIn_sub_min hleft hchunk]
  exact Nat.succ_pos _

theorem chunksIn_mono {few many : Nat} (chunk : Nat) (h : few ≤ many) :
    chunksIn few chunk ≤ chunksIn many chunk :=
  Nat.div_le_div_right (by omega)

/-- The most time that a step takes. -/
def Step.allowance : Step → Nat
  | command _ | expect _ => 0
  | advance budget times => times * budget
  | run _ budget => budget

/-- The most time that steps take together. -/
def allowances : List Step → Nat
  | [] => 0
  | s :: rest => s.allowance + allowances rest

/-- Whether an entry reports the end of its track. -/
def Entry.ends (e : Entry) : Prop :=
  e.outcome.event? = some .trackDone ∨ e.outcome.event? = some .trackFail

namespace Player

variable {p q : Player} {budget : Nat} {report : Report}

theorem announced_advance (h : p.advance budget = some (report, q)) (hready : p.announced = true) :
    q.announced = true :=
  announced_act (act_advance_eq_some_iff.mpr ⟨report, h, rfl⟩) hready

end Player

namespace Runner

variable {r s r' : Runner} {step times chunk left budget index : Nat} {label : String}
  {report : Report} {entries : List Entry}

theorem isEnded_of_ends (hadvance : r.advance budget = .ok (report, s))
    (hends : (s.entry step label (.advance report)).ends) : s.player.isEnded = true := by
  obtain ⟨q, hq, -, rfl⟩ := advance_eq_ok_iff.mp hadvance
  rcases hends with hdone | hfail
  · exact Player.isEnded_iff.mpr (.inl (Player.done_of_trackDone hq (Option.some.inj hdone)))
  · exact Player.isEnded_iff.mpr (.inr (Player.failed_of_trackFail hq (Option.some.inj hfail)))

/-! ## What chunks come to -/

theorem Chunks.eq_nil_of_ended (h : Chunks step label chunk left r entries r')
    (hended : r.player.isEnded = true) : entries = [] := by
  cases h with
  | stop => rfl
  | chunk _ hactive => exact absurd (hactive.symm.trans hended) (by decide)

theorem Chunks.totalElapsed_le (h : Chunks step label chunk left r entries r') :
    totalElapsed entries ≤ left := by
  induction h with
  | stop => exact Nat.zero_le _
  | @chunk left _ _ _ report _ _ _ hadvance _ ih =>
    obtain ⟨q, hq, -⟩ := advance_eq_ok_iff.mp hadvance
    have hle := Nat.le_trans (Player.elapsed_le_budget hq) (Nat.min_le_right chunk left)
    rw [totalElapsed_entry_cons]
    omega

theorem Chunks.totalElapsed_eq (h : Chunks step label chunk left r entries r')
    (hactive : r'.player.isEnded = false) : totalElapsed entries = left := by
  induction h with
  | stop hstop =>
    rcases hstop with rfl | hended
    · rfl
    · exact absurd (hactive.symm.trans hended) (by decide)
  | @chunk left _ _ _ report _ _ _ hadvance _ ih =>
    obtain ⟨q, hq, -⟩ := advance_eq_ok_iff.mp hadvance
    have hle := Nat.le_trans (Player.elapsed_le_budget hq) (Nat.min_le_right chunk left)
    rw [totalElapsed_entry_cons, ih hactive]
    omega

/-- Nothing comes behind an entry that reports the end. -/
theorem Chunks.not_ends (h : Chunks step label chunk left r entries r') :
    ∀ e ∈ entries.dropLast, ¬e.ends := by
  induction h with
  | stop => simp
  | @chunk _ _ _ _ _ entries _ _ hadvance hrest ih =>
    cases entries with
    | nil => simp
    | cons next more =>
      intro e he
      rw [List.dropLast_cons_cons, List.mem_cons] at he
      rcases he with rfl | he
      · intro hends
        cases hrest.eq_nil_of_ended (isEnded_of_ends hadvance hends)
      · exact ih e he

/-- Every chunk takes its share of the budget, but for the one that reports readiness. -/
theorem Chunks.length_le (h : Chunks step label chunk left r entries r') (hchunk : 1 ≤ chunk) :
    entries.length ≤ chunksIn left chunk + (!r.player.announced).toNat := by
  induction h with
  | stop => exact Nat.zero_le _
  | @chunk left r s _ report entries hleft hactive hadvance hrest ih =>
    have hshare := chunksIn_sub_min hleft hchunk
    obtain ⟨q, hq, -, rfl⟩ := advance_eq_ok_iff.mp hadvance
    rw [List.length_cons]
    cases hevent : report.event.isBoundary with
    | false =>
      obtain ⟨hspent, -⟩ := Player.routine_advance hq hactive hevent
      have hmono : (!q.announced).toNat ≤ (!r.player.announced).toNat := by
        cases hready : r.player.announced with
        | false => exact Bool.toNat_le _
        | true => exact Nat.le_of_eq (by rw [Player.announced_advance hq hready])
      rw [hspent] at ih
      dsimp only at ih
      omega
    | true =>
      rcases Player.boundary_advance hq hevent with hended | ⟨hfresh, hready⟩
      · have hpos := chunksIn_pos hleft hchunk
        rw [hrest.eq_nil_of_ended hended, List.length_nil]
        omega
      · have hmono := chunksIn_mono chunk (Nat.sub_le left report.elapsed)
        dsimp only at ih
        rw [hready] at ih
        rw [hfresh]
        simp only [Bool.not_true, Bool.not_false, Bool.toNat_true, Bool.toNat_false] at ih ⊢
        omega

/-! ## Runs of steps -/

/-- A complete replay has applied every step to a runner that began at zero. -/
theorem applyAll_of_replay {scenario : Scenario} {t : Transcript}
    (hreplay : scenario.replay = .ok (.ok t)) :
    ∃ fresh last, ofScenario scenario = .ok fresh ∧ fresh.clock = 0 ∧
      fresh.applyAll 0 scenario.steps = .ok (last, .ok t.entries) := by
  cases hcontent : scenario.content.resolve with
  | error flaw =>
    have hflawed : ofScenario scenario = .error flaw := by
      unfold ofScenario
      rw [hcontent]
      rfl
    simp [Scenario.replay, hflawed] at hreplay
  | ok content =>
    have hfresh := Scenario.ofScenario_of_resolve hcontent
    obtain ⟨last, hattempt⟩ := Scenario.attempt_of_replay hfresh hreplay
    exact ⟨_, last, hfresh, rfl, applyAll_of_attempt hattempt⟩

/-- The clock that a complete replay shows is that of its runner, and the time that its entries
took. -/
theorem clock_of_replay {scenario : Scenario} {t : Transcript}
    (hreplay : scenario.replay = .ok (.ok t)) :
    ∃ fresh last, ofScenario scenario = .ok fresh ∧
      fresh.applyAll 0 scenario.steps = .ok (last, .ok t.entries) ∧
      t.clock = last.clock ∧ t.clock = totalElapsed t.entries := by
  obtain ⟨fresh, last, hfresh, hzero, hall⟩ := applyAll_of_replay hreplay
  have haccounts := accounts_of_follow (follow_of_applyAll hall)
  have hclock : t.clock = last.clock := by
    rw [haccounts.clock_eq, hzero]
    rfl
  refine ⟨fresh, last, hfresh, hall, hclock, ?_⟩
  rw [hclock, haccounts.clock_eq, haccounts.clocked.clockAfter_eq, hzero, Nat.zero_add]

/-- Steps that do not halt are followed to their end. -/
theorem follow_or_halts (h : r.player.Responsive) (index : Nat) {steps : List Step}
    (hsteps : ∀ chunk budget, .run chunk budget ∈ steps → 1 ≤ chunk) :
    (∃ r' entries, r.follow index steps = .ok (r', entries)) ∨
      r.follow index steps = .error .overflow ∧ Halts .overflow index r steps := by
  cases hfollow : r.follow index steps with
  | ok answer => exact .inl ⟨_, _, rfl⟩
  | error fault =>
    have hhalts := (follow_eq_error_iff hsteps).mp hfollow
    rcases fault.eq_endless_or_overflow with rfl | rfl
    · exact absurd hhalts (not_halts h)
    · exact .inr ⟨rfl, hhalts⟩

/-- A run in chunks comes to its end, unless it is stuck for want of time. -/
theorem chunks_or_stuck (h : r.player.Responsive) (index budget : Nat) (hchunk : 1 ≤ chunk) :
    (∃ r' entries, r.apply index (.run chunk budget) = .ok (r', .ok entries) ∧
      Chunks index (Step.run chunk budget).label chunk budget r entries r') ∨
    r.apply index (.run chunk budget) = .error .overflow ∧ Stuck .overflow chunk budget r := by
  cases happly : r.apply index (.run chunk budget) with
  | ok answer =>
    obtain ⟨r', result⟩ := answer
    cases applies_of_apply happly with
    | run hchunks => exact .inl ⟨r', _, rfl, hchunks⟩
  | error fault =>
    have hstuck := (apply_run_eq_error_iff index hchunk).mp happly
    rcases fault.eq_endless_or_overflow with rfl | rfl
    · exact absurd hstuck (not_stuck h)
    · exact .inr ⟨rfl, hstuck⟩

/-! ## Time that there is room for -/

theorem clock_of_advance_le (hadvance : r.advance budget = .ok (report, s)) :
    s.clock ≤ r.clock + budget := by
  obtain ⟨q, hq, -, rfl⟩ := advance_eq_ok_iff.mp hadvance
  exact Nat.add_le_add_left (Player.elapsed_le_budget hq) r.clock

/-- An advance for which the clock has room does not want for time. -/
theorem advance_ne_overflow (hroom : r.clock + budget ≤ lastMillis) :
    r.advance budget ≠ .error .overflow := by
  intro hfault
  rcases advance_eq_error_iff.mp hfault with ⟨hendless, -⟩ | ⟨-, report, q, hq, hpast⟩
  · cases hendless
  · have hspent := Player.elapsed_le_budget hq
    omega

/-- A run for which the clock has room is not stuck for want of time. -/
theorem not_stuck_of_room (hroom : r.clock + left ≤ lastMillis) :
    ¬Stuck .overflow chunk left r := by
  intro hstuck
  induction hstuck with
  | here _ _ hfault => exact advance_ne_overflow (by omega) hfault
  | later _ _ hadvance _ ih =>
    obtain ⟨q, hq, -, rfl⟩ := advance_eq_ok_iff.mp hadvance
    have hspent := Player.elapsed_le_budget hq
    exact ih (by dsimp only; omega)

/-- Nor are advances in a row. -/
theorem not_stuckWithin_of_room (hroom : r.clock + times * budget ≤ lastMillis) :
    ¬StuckWithin .overflow budget times r := by
  intro hstuck
  induction hstuck with
  | here hfault =>
    rw [Nat.succ_mul] at hroom
    exact advance_ne_overflow (by omega) hfault
  | later hadvance _ ih =>
    rw [Nat.succ_mul] at hroom
    have hspent := clock_of_advance_le hadvance
    exact ih (by omega)

theorem not_breaks_of_room {step : Step} (hroom : r.clock + step.allowance ≤ lastMillis) :
    ¬Breaks .overflow r step := by
  intro hbreaks
  cases hbreaks with
  | advance hstuck => exact not_stuckWithin_of_room hroom hstuck
  | run hstuck => exact not_stuck_of_room hroom hstuck

theorem clock_of_advanceTimes_le {done : List Entry}
    (hrun : advanceTimes step label budget times r done = .ok (r', entries)) :
    r'.clock ≤ r.clock + times * budget := by
  induction times generalizing r done with
  | zero =>
    cases hrun
    exact Nat.le_add_right _ _
  | succ times ih =>
    rw [advanceTimes] at hrun
    cases hadvance : r.advance budget with
    | error fault =>
      rw [hadvance] at hrun
      cases hrun
    | ok answer =>
      obtain ⟨report, s⟩ := answer
      rw [hadvance] at hrun
      have hspent := clock_of_advance_le hadvance
      have hrest := ih hrun
      rw [Nat.succ_mul]
      omega

theorem clock_of_apply_le {step : Step} {result : Except Unmet (List Entry)}
    (happly : r.apply index step = .ok (s, result)) : s.clock ≤ r.clock + step.allowance := by
  cases step with
  | command c =>
    cases happly
    exact Nat.le_add_right _ _
  | advance budget times =>
    obtain ⟨⟨_, entries⟩, hrun, heq⟩ := map_eq_ok_iff.mp happly
    cases heq
    exact clock_of_advanceTimes_le hrun
  | run chunk budget =>
    cases applies_of_apply happly with
    | run hchunks =>
      have haccounts := hchunks.slices.accounts
      rw [haccounts.clock_eq, haccounts.clocked.clockAfter_eq]
      exact Nat.add_le_add_left hchunks.totalElapsed_le r.clock
  | expect e =>
    cases applies_of_apply happly with
    | pass => exact Nat.le_add_right _ _
    | fail => exact Nat.le_add_right _ _

/-- Where the clock has room for all that steps may take, none of them halts for want of time. -/
theorem not_halts_of_room {steps : List Step}
    (hroom : r.clock + allowances steps ≤ lastMillis) :
    ¬Halts .overflow index r steps := by
  intro hhalts
  induction hhalts with
  | here hbreaks =>
    rw [allowances] at hroom
    exact not_breaks_of_room (by omega) hbreaks
  | later happly _ ih =>
    rw [allowances] at hroom
    have hspent := clock_of_apply_le happly
    exact ih (by omega)

/-- Steps keep the time, from any runner whose window lies on the time line.

They come to an end, unless the clock would pass the last instant, which it does not if it has room
for all that they may take. The clock of every entry is the one before it and what the entry took,
and the clock of the runner is that of the last entry. A replay that is complete shows the clock of
its runner, which is all that its entries took. A run step for which there is time takes its budget,
or less of it if the track ends, in at most one entry more than the budget has room for chunks; only
the last entry may report the end. -/
theorem steps_keep_time (hreach : r.player.Reachable) (hfits : r.player.params.Fits) (index : Nat)
    {steps : List Step} (hsteps : ∀ chunk budget, .run chunk budget ∈ steps → 1 ≤ chunk) :
    ((∃ r' entries, r.follow index steps = .ok (r', entries) ∧ Clocked r.clock entries ∧
        r'.clock = clockAfter r.clock entries ∧ r'.clock = r.clock + totalElapsed entries) ∨
      r.follow index steps = .error .overflow ∧ Halts .overflow index r steps) ∧
    (r.clock + allowances steps ≤ lastMillis → ¬Halts .overflow index r steps) ∧
    (∀ (scenario : Scenario) (t : Transcript), scenario.replay = .ok (.ok t) →
      ∃ fresh last, ofScenario scenario = .ok fresh ∧
        fresh.applyAll 0 scenario.steps = .ok (last, .ok t.entries) ∧
        t.clock = last.clock ∧ t.clock = totalElapsed t.entries) ∧
    ∀ chunk budget, 1 ≤ chunk →
      ((∃ r' entries, r.apply index (.run chunk budget) = .ok (r', .ok entries) ∧
          entries.length ≤ (budget + chunk - 1) / chunk + 1 ∧
          totalElapsed entries ≤ budget ∧
          (r'.player.isEnded = false → totalElapsed entries = budget) ∧
          (∀ e ∈ entries.dropLast, ¬e.ends) ∧
          (r.player.isEnded = true → entries = [])) ∨
        r.apply index (.run chunk budget) = .error .overflow ∧ Stuck .overflow chunk budget r) ∧
      (r.clock + budget ≤ lastMillis → ¬Stuck .overflow chunk budget r) := by
  have hresponsive : r.player.Responsive := ⟨hreach.coherent, hfits.not_stalls⟩
  refine ⟨?_, not_halts_of_room, fun scenario t => clock_of_replay, ?_⟩
  · refine (follow_or_halts hresponsive index hsteps).imp_left ?_
    rintro ⟨r', entries, hfollow⟩
    have haccounts := accounts_of_follow hfollow
    refine ⟨r', entries, hfollow, haccounts.clocked, haccounts.clock_eq, ?_⟩
    rw [haccounts.clock_eq, haccounts.clocked.clockAfter_eq]
  · intro chunk budget hchunk
    refine ⟨(chunks_or_stuck hresponsive index budget hchunk).imp_left ?_, not_stuck_of_room⟩
    rintro ⟨r', entries, happly, hchunks⟩
    have hlength : entries.length ≤ chunksIn budget chunk + 1 :=
      Nat.le_trans (hchunks.length_le hchunk) (Nat.add_le_add_left (Bool.toNat_le _) _)
    exact ⟨r', entries, happly, hlength, hchunks.totalElapsed_le, hchunks.totalElapsed_eq,
      hchunks.not_ends, hchunks.eq_nil_of_ended⟩

/-- Readiness, two chunks of five milliseconds and one of two are as many entries as there can be; a
check that fails behind them leaves none. -/
theorem steps_keep_time_in_four_entries :
    ∃ r : Runner,
      (∃ r' entries, r.follow 0 [.run 5 12, .expect { clock := some 9 }, .command .play] =
        .ok (r', entries) ∧ r'.clock = clockAfter 7 entries ∧
          r'.clock = 7 + totalElapsed entries) ∧
      ∃ r' entries, r.apply 0 (.run 5 12) = .ok (r', .ok entries) ∧
        entries.length = (12 + 5 - 1) / 5 + 1 ∧ totalElapsed entries = 12 := by
  have hreach : (Player.new { extent := .finite 40 }).Reachable := ⟨_, [], [], rfl⟩
  have hfits : (Player.new { extent := .finite 40 }).params.Fits := by
    intro length hext
    cases hext
    decide
  have hsteps : ∀ chunk budget, Step.run chunk budget ∈
      [.run 5 12, .expect { clock := some 9 }, .command .play] → 1 ≤ chunk := by simp
  obtain ⟨hfollows, hhalts, -, hrun⟩ :=
    steps_keep_time (r := ⟨.new { extent := .finite 40 }, 7, none⟩) hreach hfits 0 hsteps
  have hanswer : (apply ⟨.new { extent := .finite 40 }, 7, none⟩ 0 (.run 5 12)).map
      (fun a => (a.1.player.isEnded, (entriesLeft a.2).length)) = .ok (false, 4) := by cbv
  obtain ⟨hchunks, hroom⟩ := hrun 5 12 (by decide)
  rcases hfollows with ⟨r', entries, hfollow, -, hclock, helapsed⟩ | ⟨-, hhalted⟩
  · rcases hchunks with ⟨s, chunks, happly, -, -, hspent, -, -⟩ | ⟨-, hstuck⟩
    · rw [happly, map_ok, Except.ok.injEq, Prod.mk.injEq] at hanswer
      exact ⟨_, ⟨r', entries, hfollow, hclock, helapsed⟩, s, chunks, happly, hanswer.2,
        hspent hanswer.1⟩
    · exact absurd hstuck (hroom (by decide))
  · exact absurd hhalted (hhalts (by decide))

end Runner

end Playhead

import Playhead.Proofs.Player.Buffering
import Playhead.Soak

/-!
# Soaks find nothing

A soak without its checks and counters is a ledger of operations (`Soak.ledger`), for which nothing
is needed but that every draw and every advance answers. With them it comes to just the counts of
this ledger: no check ever fails, whatever is drawn (`run_never_violated`). The checks pass because
players are coherent and the soak knows whether the present one is ready (`Soak.Sound`); the counts
of readiness, crashes and restarts keep together because a player crashes once, when it is ready,
and only a player that crashed is replaced (`ledger_counts`). The one thing that a ledger does not
show is whether its time can be counted: a soak stops as soon as that does not fit its word.
-/

namespace Playhead.Soak

/-- One operation of a soak: whether a fresh player was taken, and what happened to the player. -/
structure Operation where
  restarted : Bool
  moment : Moment

section

variable {σ : Type} (next : σ → UInt32 × σ)

/-- Whether a player is to be replaced. -/
def replaces (p : Player) (source : σ) : Bool × σ :=
  if p.lifecycle = .failed then Draw.oneInFive next source else (false, source)

/-- One operation, if its draw and its action answer. -/
def operation (fresh : Player) (span : Nat) (source : σ) (p : Player) :
    Except Fault (Operation × σ) := do
  let (restarted, source) := replaces next p source
  let before := if restarted then fresh else p
  let (action, source) ← draw next span source
  let (reply, after) ← orEndless (before.act action)
  return (⟨restarted, ⟨before, action, reply, after⟩⟩, source)

/-- A number of operations in order, if all their draws and actions answer. -/
def ledger (fresh : Player) (span : Nat) : Nat → σ → Player → Except Fault (List Operation)
  | 0, _, _ => .ok []
  | count + 1, source, p => do
    let (op, source) ← operation next fresh span source p
    let rest ← ledger fresh span count source op.moment.after
    return op :: rest

end

/-- What a report comes to with the counts of more operations. -/
def Report.plus (r : Report) (ops : List Operation) : Report where
  operations := r.operations + ops.length
  advanced := r.advanced + elapsedBy (ops.map (·.moment.reply))
  ready := r.ready + ops.countP (·.moment.reports .trackReady)
  done := r.done + ops.countP (·.moment.reports .trackDone)
  fail := r.fail + ops.countP (·.moment.reports .trackFail)
  restarts := r.restarts + ops.countP (·.restarted)

theorem Report.plus_cons (r : Report) (op : Operation) (rest : List Operation) :
    r.plus (op :: rest) = (r.plus [op]).plus rest := by
  simp only [plus, List.length_cons, List.length_nil, List.map_cons, List.map_nil, elapsedBy,
    List.countP_cons, List.countP_nil, Report.mk.injEq]
  omega

/-- A report whose time fits its word. -/
def Report.checked (r : Report) : Except Fault Report :=
  if r.advanced ≤ lastMillis then .ok r else .error .overflow

theorem Report.checked_eq_ok_iff {r s : Report} :
    r.checked = .ok s ↔ r.advanced ≤ lastMillis ∧ r = s := by
  unfold checked
  split <;> simp [*]

theorem Report.checked_of_lt {r : Report} (h : lastMillis < r.advanced) :
    r.checked = .error .overflow := if_neg (Nat.not_le.mpr h)

/-- Counting a reply is adding the operation that gave it, as long as the time fits. -/
theorem Report.count_eq_checked {r : Report} (h : r.advanced ≤ lastMillis) (m : Moment) :
    (r.count m.reply).map (fun s => { s with operations := s.operations + 1 }) =
      (r.plus [⟨false, m⟩]).checked := by
  obtain ⟨before, action, reply, after⟩ := m
  cases reply with
  | acted effect => exact (if_pos h).symm
  | reported report =>
    obtain ⟨event, elapsed⟩ := report
    unfold count addMillis checked
    simp only [plus, elapsedBy, Reply.elapsed, List.map_cons, List.map_nil, Nat.add_zero]
    split
    · cases event <;> rfl
    · rfl

theorem Report.plus_restarted (r : Report) (restarted : Bool) (m : Moment) :
    { r with restarts := r.restarts + restarted.toNat }.plus [⟨false, m⟩] =
      r.plus [⟨restarted, m⟩] := by
  cases restarted <;> rfl

/-! ## Checks -/

variable {σ : Type} {next : σ → UInt32 × σ} {fresh p q : Player} {span : Nat} {s : State σ}

theorem announces_eq (reply : Reply) : announces reply = (reply.event? == some .trackReady) := by
  cases reply with
  | acted effect => rfl
  | reported report =>
    obtain ⟨event, elapsed⟩ := report
    cases event <;> rfl

/-- A report tells the truth about the player before and after it. -/
theorem reportViolation?_eq_none {budget : Nat} {report : Playhead.Report}
    (hadvance : p.advance budget = some (report, q)) :
    reportViolation? p.announced budget p q report = none := by
  have hle := Player.elapsed_le_budget hadvance
  unfold reportViolation?
  rw [if_neg (Nat.not_lt.mpr hle)]
  cases hended : p.isEnded with
  | true =>
    rw [Player.advance_eq_iff.mpr (.ended hended)] at hadvance
    cases hadvance
    simp
  | false =>
    rw [Bool.false_and, if_neg Bool.false_ne_true]
    have hact := Player.act_advance_eq_some_iff.mpr ⟨report, hadvance, rfl⟩
    cases Player.reports_advance hadvance with
    | update hkept => simp [hkept]
    | ready => simpa using (Player.ready_of_act hact rfl).1
    | done hplaying _ hdone => simp [hdone, Player.isActive, Lifecycle.isActive, hplaying]
    | fail hplaying _ hfailed => simp [hfailed, Player.isActive, Lifecycle.isActive, hplaying]
    | idle => simp
    | ended => simp

/-- A coherent player passes the checks, and one that failed stays as it is. -/
theorem stateViolation?_eq_none (hq : q.Coherent) (hfrozen : p.lifecycle = .failed → q = p) :
    stateViolation? p q = none := by
  have hpasses : stateViolation?.passes? q = none := by
    unfold stateViolation?.passes?
    split
    · next passes hrepeats => exact if_neg (Nat.not_lt.mpr (hq.plays_le_passes passes hrepeats))
    · rfl
  have hover : stateViolation?.overrun? q = none := by
    unfold stateViolation?.overrun?
    split
    · next last hlast =>
      rw [if_neg (Nat.not_lt.mpr (hq.position_le_last last hlast)), hpasses]
    · exact hpasses
  unfold stateViolation?
  rw [if_neg (Nat.not_lt.mpr hq.start_le_position), hover]
  by_cases hfailed : p.lifecycle = .failed
  · rw [hfrozen hfailed]
    simp
  · simp [hfailed]

/-- What the checks rely on: the player is coherent, and it is known whether it is ready. The time
counted so far fits its word. -/
structure Sound (s : State σ) : Prop where
  coherent : s.player.Coherent
  readySeen_eq : s.readySeen = s.player.announced
  advanced_le : s.report.advanced ≤ lastMillis

theorem stateViolation?_act (h : p.Coherent) {a : Action} {reply : Reply}
    (hact : p.act a = some (reply, q)) : stateViolation? p q = none := by
  refine stateViolation?_eq_none (h.act hact) fun hfailed => ?_
  rw [Player.act_of_failed hfailed] at hact
  cases hact
  rfl

theorem readySeen_act {a : Action} {reply : Reply} (hact : p.act a = some (reply, q)) :
    (p.announced || announces reply) = q.announced := by
  have hannounced := Player.announced_of_act hact
  rw [announces_eq]
  by_cases hevent : reply.event? = some .trackReady
  · rw [if_pos hevent] at hannounced
    simp [hannounced.2, hevent]
  · rw [if_neg hevent] at hannounced
    rw [beq_false_of_ne hevent, Bool.or_false, hannounced]

/-- Every check of an operation passes, so it comes to what the player answers, counted. -/
theorem Sound.perform_eq (h : Sound s) (a : Action) :
    perform a s = orEndless (s.player.act a) >>= fun (reply, q) =>
      (s.report.plus [⟨false, ⟨s.player, a, reply, q⟩⟩]).checked.map fun report =>
        .ok { s with player := q, readySeen := q.announced, report } := by
  unfold perform
  cases hact : s.player.act a with
  | none => rfl
  | some result =>
    obtain ⟨reply, q⟩ := result
    have hstate := stateViolation?_act h.coherent hact
    have hready := readySeen_act hact
    simp only [orEndless, bind_ok, h.readySeen_eq, hready,
      ← Report.count_eq_checked h.advanced_le ⟨s.player, a, reply, q⟩]
    cases s.report.count reply with
    | error fault => rfl
    | ok report =>
      cases a with
      | command c => simp [hstate, pure, Except.pure]
      | advance budget =>
        obtain ⟨report, hadvance, rfl⟩ := Player.act_advance_eq_some_iff.mp hact
        simp [reportViolation?_eq_none hadvance, hstate, pure, Except.pure]

/-! ## Operations -/

theorem restart_eq (s : State σ) :
    restart next fresh s =
      { source := (replaces next s.player s.source).2
        player := if (replaces next s.player s.source).1 then fresh else s.player
        readySeen := !(replaces next s.player s.source).1 && s.readySeen
        report := { s.report with
          restarts := s.report.restarts + (replaces next s.player s.source).1.toNat } } := by
  unfold restart replaces
  by_cases hfailed : s.player.lifecycle = .failed
  · rw [if_pos hfailed, if_pos hfailed]
    generalize Draw.oneInFive next s.source = drawn
    obtain ⟨hit, source⟩ := drawn
    cases hit <;> simp
  · simp [hfailed]

/-- An operation passes its checks and adds to the counts. -/
theorem Sound.turn_eq (h : Sound s) (hfresh : fresh.Coherent) (hquiet : fresh.announced = false)
    (next : σ → UInt32 × σ) (span : Nat) :
    turn next fresh span s =
      operation next fresh span s.source s.player >>= fun (op, source) =>
        (s.report.plus [op]).checked.map fun report =>
          .ok { source, player := op.moment.after, readySeen := op.moment.after.announced,
                report } := by
  unfold turn operation
  simp only [restart_eq]
  generalize replaces next s.player s.source = replaced
  obtain ⟨restarted, source⟩ := replaced
  dsimp only
  cases draw next span source with
  | error fault => rfl
  | ok drawn =>
    obtain ⟨a, source⟩ := drawn
    -- A fresh player is as sound as the one that it replaces.
    have hsound : Sound (σ := σ)
        { source
          player := if restarted then fresh else s.player
          readySeen := !restarted && s.readySeen
          report := { s.report with restarts := s.report.restarts + restarted.toNat } } := by
      cases restarted with
      | true => exact ⟨hfresh, hquiet.symm, h.advanced_le⟩
      | false => exact ⟨h.coherent, h.readySeen_eq, h.advanced_le⟩
    refine (hsound.perform_eq a).trans ?_
    simp only [Report.plus_restarted, bind_ok]
    generalize (if restarted then fresh else s.player) = before
    cases before.act a <;> rfl

variable {source source' : σ} {op : Operation} {ops : List Operation} {fault : Fault}

/-- An operation acts on the player as it is, or on a fresh one if that player failed. -/
theorem before_of_operation (hop : operation next fresh span source p = .ok (op, source')) :
    (op.restarted = false ∧ op.moment.before = p ∨
      op.restarted = true ∧ op.moment.before = fresh ∧ p.lifecycle = .failed) ∧
    op.moment.before.act op.moment.action = some (op.moment.reply, op.moment.after) := by
  unfold operation at hop
  have hreplaced : (replaces next p source).1 = true → p.lifecycle = .failed := by
    unfold replaces
    split
    · next hfailed => exact fun _ => hfailed
    · exact nofun
  generalize replaces next p source = replaced at hop hreplaced
  obtain ⟨restarted, source⟩ := replaced
  obtain ⟨⟨a, source⟩, -, hrest⟩ := bind_eq_ok_iff.mp hop
  obtain ⟨⟨reply, q⟩, hact, heq⟩ := bind_eq_ok_iff.mp hrest
  cases heq
  refine ⟨?_, orEndless_eq_ok_iff.mp hact⟩
  cases restarted with
  | true => exact .inr ⟨rfl, rfl, hreplaced rfl⟩
  | false => exact .inl ⟨rfl, rfl⟩

theorem coherent_before (hfresh : fresh.Coherent) (hp : p.Coherent)
    (hop : operation next fresh span source p = .ok (op, source')) :
    op.moment.before.Coherent := by
  obtain ⟨⟨-, hsame⟩ | ⟨-, hnew, -⟩, -⟩ := before_of_operation hop
  · exact hsame ▸ hp
  · exact hnew ▸ hfresh

theorem coherent_after (hfresh : fresh.Coherent) (hp : p.Coherent)
    (hop : operation next fresh span source p = .ok (op, source')) :
    op.moment.after.Coherent :=
  (coherent_before hfresh hp hop).act (before_of_operation hop).2

theorem ledger_succ_eq_ok_iff {count : Nat} :
    ledger next fresh span (count + 1) source p = .ok ops ↔
      ∃ op source' rest, operation next fresh span source p = .ok (op, source') ∧
        ledger next fresh span count source' op.moment.after = .ok rest ∧ op :: rest = ops := by
  rw [ledger, bind_eq_ok_iff]
  constructor
  · rintro ⟨⟨op, source'⟩, hop, hrest⟩
    obtain ⟨rest, hledger, heq⟩ := bind_eq_ok_iff.mp hrest
    cases heq
    exact ⟨op, source', rest, hop, hledger, rfl⟩
  · rintro ⟨op, source', rest, hop, hledger, rfl⟩
    exact ⟨(op, source'), hop, bind_eq_ok_iff.mpr ⟨rest, hledger, rfl⟩⟩

theorem ledger_cons {count : Nat} {rest : List Operation}
    (hop : operation next fresh span source p = .ok (op, source'))
    (hrest : ledger next fresh span count source' op.moment.after = .ok rest) :
    ledger next fresh span (count + 1) source p = .ok (op :: rest) :=
  ledger_succ_eq_ok_iff.mpr ⟨op, source', rest, hop, hrest, rfl⟩

theorem ledger_succ_eq_error_iff {count : Nat} :
    ledger next fresh span (count + 1) source p = .error fault ↔
      operation next fresh span source p = .error fault ∨
      ∃ op source', operation next fresh span source p = .ok (op, source') ∧
        ledger next fresh span count source' op.moment.after = .error fault := by
  rw [ledger, bind_eq_error_iff]
  refine or_congr Iff.rfl ?_
  constructor
  · rintro ⟨⟨op, source'⟩, hop, hrest⟩
    rcases bind_eq_error_iff.mp hrest with hledger | ⟨rest, -, heq⟩
    · exact ⟨op, source', hop, hledger⟩
    · cases heq
  · rintro ⟨op, source', hop, hledger⟩
    exact ⟨(op, source'), hop, bind_eq_error_iff.mpr (.inl hledger)⟩

/-- What is left by an operation whose time fits is as sound as what it began with. -/
theorem Sound.after (h : Sound s) (hfresh : fresh.Coherent)
    (hop : operation next fresh span s.source s.player = .ok (op, source'))
    (hfits : (s.report.plus [op]).advanced ≤ lastMillis) :
    Sound (σ := σ)
      { source := source', player := op.moment.after, readySeen := op.moment.after.announced,
        report := s.report.plus [op] } :=
  ⟨coherent_after hfresh h.coherent hop, rfl, hfits⟩

/-- Operations in a row pass their checks and add up in the counts. -/
theorem Sound.turns_eq (h : Sound s) (hfresh : fresh.Coherent) (hquiet : fresh.announced = false)
    {count : Nat} (operation : Nat)
    (hledger : ledger next fresh span count s.source s.player = .ok ops) :
    (turns next fresh span count operation s).map (·.map State.report) =
      (s.report.plus ops).checked.map .ok := by
  induction count generalizing operation s ops with
  | zero =>
    cases hledger
    have hchecked : (s.report.plus []).checked = .ok s.report :=
      Report.checked_eq_ok_iff.mpr ⟨h.advanced_le, rfl⟩
    rw [hchecked]
    rfl
  | succ count ih =>
    obtain ⟨op, source, rest, hop, hrest, rfl⟩ := ledger_succ_eq_ok_iff.mp hledger
    have hturn := h.turn_eq hfresh hquiet next span
    rw [hop] at hturn
    rw [turns, hturn, Report.plus_cons]
    by_cases hfits : (s.report.plus [op]).advanced ≤ lastMillis
    · have hchecked := Report.checked_eq_ok_iff.mpr ⟨hfits, rfl⟩
      simp only [bind_ok, hchecked, map_ok]
      exact ih (h.after hfresh hop hfits) (operation + 1) hrest
    · -- What does not fit any more is not made to fit by counting on.
      have hover := Nat.lt_of_not_le hfits
      have hlater : lastMillis < ((s.report.plus [op]).plus rest).advanced :=
        Nat.lt_of_lt_of_le hover (Nat.le_add_right _ _)
      simp only [bind_ok, Report.checked_of_lt hover, Report.checked_of_lt hlater, map_error]

/-- Where the operations have no answer there is none to a soak, which may have stopped earlier for
the time that it counts. -/
theorem Sound.turns_eq_error (h : Sound s) (hfresh : fresh.Coherent)
    (hquiet : fresh.announced = false) {count : Nat} (operation : Nat)
    (hledger : ledger next fresh span count s.source s.player = .error fault) :
    turns next fresh span count operation s = .error fault ∨
      turns next fresh span count operation s = .error .overflow := by
  induction count generalizing operation s with
  | zero => cases hledger
  | succ count ih =>
    have hturn := h.turn_eq hfresh hquiet next span
    rcases ledger_succ_eq_error_iff.mp hledger with hop | ⟨op, source, hop, hrest⟩
    · rw [hop] at hturn
      exact .inl (by rw [turns, hturn]; rfl)
    · rw [hop] at hturn
      rw [turns, hturn]
      by_cases hfits : (s.report.plus [op]).advanced ≤ lastMillis
      · have hchecked := Report.checked_eq_ok_iff.mpr ⟨hfits, rfl⟩
        simp only [bind_ok, hchecked, map_ok]
        exact ih (h.after hfresh hop hfits) (operation + 1) hrest
      · refine .inr ?_
        simp only [bind_ok, Report.checked_of_lt (Nat.lt_of_not_le hfits), map_error]

/-! ## Counts -/

theorem countP_cons_toNat {α : Type} (f : α → Bool) (x : α) (xs : List α) :
    (x :: xs).countP f = (f x).toNat + xs.countP f := by
  rw [List.countP_cons, Nat.add_comm]
  cases f x <;> rfl

/-- A player becomes ready by reporting it. -/
theorem announced_add_reports {m : Moment}
    (hact : m.before.act m.action = some (m.reply, m.after)) :
    m.before.announced.toNat + (m.reports .trackReady).toNat = m.after.announced.toNat := by
  have hannounced := Player.announced_of_act hact
  by_cases hevent : m.reply.event? = some .trackReady
  · rw [if_pos hevent] at hannounced
    rw [hannounced.1, hannounced.2, Player.reports_iff.mpr hevent]
    rfl
  · rw [if_neg hevent] at hannounced
    rw [hannounced, Player.reports_eq_false_iff.mpr hevent]
    rfl

/-- A player fails by reporting it. -/
theorem failed_add_reports {m : Moment} (h : m.before.Coherent)
    (hact : m.before.act m.action = some (m.reply, m.after)) :
    (m.before.lifecycle == .failed).toNat + (m.reports .trackFail).toNat =
      (m.after.lifecycle == .failed).toNat := by
  by_cases hevent : m.reply.event? = some .trackFail
  · obtain ⟨hplaying, hfailed⟩ := Player.lifecycle_of_trackFail hact hevent
    rw [hplaying, hfailed, Player.reports_iff.mpr hevent]
    rfl
  · rw [Player.reports_eq_false_iff.mpr hevent]
    by_cases hbefore : m.before.lifecycle = .failed
    · rw [hbefore, Player.failed_act hact hbefore]
      rfl
    · have hafter : m.after.lifecycle ≠ .failed := by
        intro hafter
        have hchange := h.changes_act hact (hafter ▸ Ne.symm hbefore)
        obtain ⟨p, a, reply, q⟩ := m
        rw [hafter] at hchange
        cases hchange with
        | crash => exact hevent rfl
      rw [beq_false_of_ne hbefore, beq_false_of_ne hafter]
      rfl

theorem ready_of_operation (hp : p.Coherent) (hquiet : fresh.announced = false)
    (hop : operation next fresh span source p = .ok (op, source')) :
    p.announced.toNat + (op.moment.reports .trackReady).toNat =
      op.restarted.toNat + op.moment.after.announced.toNat := by
  obtain ⟨⟨hkept, hsame⟩ | ⟨hnew, hbefore, hfailed⟩, hact⟩ := before_of_operation hop
  · rw [← announced_add_reports hact, hkept, hsame, Bool.toNat_false, Nat.zero_add]
  · rw [← announced_add_reports hact, hnew, hbefore, hquiet, (hp.cause_of_failed hfailed).2,
      Bool.toNat_false, Nat.zero_add]

theorem fail_of_operation (hfresh : fresh.Coherent) (hidle : fresh.lifecycle = .idle)
    (hp : p.Coherent) (hop : operation next fresh span source p = .ok (op, source')) :
    (p.lifecycle == .failed).toNat + (op.moment.reports .trackFail).toNat =
      op.restarted.toNat + (op.moment.after.lifecycle == .failed).toNat := by
  have hcoherent := coherent_before hfresh hp hop
  obtain ⟨⟨hkept, hsame⟩ | ⟨hnew, hbefore, hfailed⟩, hact⟩ := before_of_operation hop
  · rw [← failed_add_reports hcoherent hact, hkept, hsame, Bool.toNat_false, Nat.zero_add]
  · rw [← failed_add_reports hcoherent hact, hnew, hbefore, hidle, hfailed]
    simp

/-- What was ready or failed at the beginning and what reported so make up what was replaced and
what is so in the end: whatever failed was ready before, and only that is replaced. -/
theorem ledger_counts (hfresh : fresh.Coherent) (hidle : fresh.lifecycle = .idle)
    (hquiet : fresh.announced = false) (hp : p.Coherent) {count : Nat}
    (hledger : ledger next fresh span count source p = .ok ops) :
    ops.length = count ∧ ∃ q : Player,
      p.announced.toNat + ops.countP (·.moment.reports .trackReady) =
        ops.countP (·.restarted) + q.announced.toNat ∧
      (p.lifecycle == .failed).toNat + ops.countP (·.moment.reports .trackFail) =
        ops.countP (·.restarted) + (q.lifecycle == .failed).toNat := by
  induction count generalizing source p ops with
  | zero =>
    cases hledger
    exact ⟨rfl, p, by simp, by simp⟩
  | succ count ih =>
    obtain ⟨op, source', rest, hop, hrest, rfl⟩ := ledger_succ_eq_ok_iff.mp hledger
    obtain ⟨hlength, q, hready, hfail⟩ := ih (coherent_after hfresh hp hop) hrest
    have hready' := ready_of_operation hp hquiet hop
    have hfail' := fail_of_operation hfresh hidle hp hop
    refine ⟨congrArg (· + 1) hlength, q, ?_, ?_⟩
    · rw [countP_cons_toNat, countP_cons_toNat]
      omega
    · rw [countP_cons_toNat, countP_cons_toNat]
      omega

theorem sound_fresh (params : Params) (source : σ) :
    Sound (σ := σ) { source, player := .new params } :=
  ⟨Player.coherent_new params, rfl, Nat.zero_le _⟩

theorem run_eq {scenario : Scenario} {content : Content}
    (hcontent : scenario.content.resolve = .ok content) (operations : Nat) (source : σ)
    (hledger : ledger next (.ofTrack scenario.track content)
      (Soak.span (Player.ofTrack scenario.track content).params) operations source
      (.ofTrack scenario.track content) = .ok ops) :
    run next scenario operations source = (Report.plus {} ops).checked.map .ok := by
  rw [run, hcontent]
  exact (sound_fresh _ source).turns_eq (Player.coherent_new _) rfl 0 hledger

theorem run_eq_error {scenario : Scenario} {content : Content}
    (hcontent : scenario.content.resolve = .ok content) (operations : Nat) (source : σ)
    (hledger : ledger next (.ofTrack scenario.track content)
      (Soak.span (Player.ofTrack scenario.track content).params) operations source
      (.ofTrack scenario.track content) = .error fault) :
    run next scenario operations source = .error fault ∨
      run next scenario operations source = .error .overflow := by
  rw [run, hcontent]
  dsimp only
  rw [map_eq_error_iff, map_eq_error_iff]
  exact (sound_fresh _ source).turns_eq_error (Player.coherent_new _) rfl 0 hledger

theorem run_ne_error {scenario : Scenario} {content : Content}
    (hcontent : scenario.content.resolve = .ok content) (operations : Nat) (source : σ)
    (failure : Failure) : run next scenario operations source ≠ .ok (.error failure) := by
  intro hfailure
  cases hledger : ledger next (.ofTrack scenario.track content)
      (Soak.span (Player.ofTrack scenario.track content).params) operations source
      (.ofTrack scenario.track content) with
  | error fault =>
    rcases run_eq_error hcontent operations source hledger with hrun | hrun <;>
      cases hfailure.symm.trans hrun
  | ok ops =>
    rw [run_eq hcontent operations source hledger] at hfailure
    obtain ⟨report, -, heq⟩ := map_eq_ok_iff.mp hfailure
    cases heq

/-- Whatever words are drawn, a soak of valid content never reports a failure, let alone a
violation. If its draws and its advances answer, and the time that they take fits its word, it has
carried out the operations it was asked for and counted what they replied; a soak whose time does
not fit stops for that. -/
theorem run_never_violated {scenario : Scenario} {content : Content}
    (hcontent : scenario.content.resolve = .ok content) (next : σ → UInt32 × σ) (operations : Nat)
    (source : σ) :
    let fresh := Player.ofTrack scenario.track content
    let outcome := ledger next fresh (Soak.span fresh.params) operations source fresh
    (∀ failure, run next scenario operations source ≠ .ok (.error failure)) ∧
    (∀ fault, outcome = .error fault →
      run next scenario operations source = .error fault ∨
        run next scenario operations source = .error .overflow) ∧
    ∀ ops, outcome = .ok ops →
      let advanced := elapsedBy (ops.map (·.moment.reply))
      (advanced < UInt64.size → ∃ report,
        run next scenario operations source = .ok (.ok report) ∧
          report.operations = operations ∧ report.ready ≤ report.restarts + 1 ∧
          report.restarts ≤ report.fail ∧ report.fail ≤ report.restarts + 1 ∧
          report.advanced = advanced) ∧
      (UInt64.size ≤ advanced → run next scenario operations source = .error .overflow) := by
  intro fresh outcome
  refine ⟨run_ne_error hcontent operations source,
    fun fault => run_eq_error hcontent operations source, fun ops hops => ?_⟩
  have hrun : run next scenario operations source = (Report.plus {} ops).checked.map .ok :=
    run_eq hcontent operations source hops
  have hadvanced : (Report.plus {} ops).advanced = elapsedBy (ops.map (·.moment.reply)) :=
    Nat.zero_add _
  constructor
  · intro hfits
    have hfresh : fresh.Coherent := Player.coherent_new _
    obtain ⟨hlength, q, hready, hfail⟩ := ledger_counts hfresh rfl rfl hfresh hops
    have hannounced := q.announced.toNat_le
    have hfailed := (q.lifecycle == .failed).toNat_le
    have hquiet : fresh.announced.toNat = 0 := rfl
    have hidle : (fresh.lifecycle == .failed).toNat = 0 := rfl
    have hchecked : (Report.plus {} ops).checked = .ok (Report.plus {} ops) :=
      Report.checked_eq_ok_iff.mpr ⟨hadvanced.trans_le (Nat.le_sub_one_of_lt hfits), rfl⟩
    refine ⟨Report.plus {} ops, by rw [hrun, hchecked, map_ok], ?_⟩
    simp only [Report.plus, Nat.zero_add]
    exact ⟨hlength, by omega, by omega, by omega, trivial⟩
  · intro hover
    rw [hrun, Report.checked_of_lt, map_error]
    exact hadvanced ▸ Nat.lt_of_lt_of_le (by decide) hover

/-- Words from a list, and zeros behind its end. -/
def listed : List UInt32 → UInt32 × List UInt32
  | [] => (0, [])
  | w :: rest => (w, rest)

/-- Four milliseconds of content that crash after two of them. -/
def brittle : Scenario :=
  { content := { length := 4, delay := .ofNat 3, failAfter := 2 } }

/-- A soak that plays the track until it crashes, replaces the player and plays it again. -/
theorem run_never_violated_over_restart :
    ∃ ops, ledger listed (.ofTrack {} { length := .finite 4, delay := 3, failAfter := some 2 }) 4 5
        [2362232015, 0, 0, 3221225472, 0, 0, 3221225472, 0, 0, 2362232015, 0, 0, 3221225472]
        (.ofTrack {} { length := .finite 4, delay := 3, failAfter := some 2 }) = .ok ops ∧
      run listed brittle 5
        [2362232015, 0, 0, 3221225472, 0, 0, 3221225472, 0, 0, 2362232015, 0, 0, 3221225472] =
        .ok (.ok ⟨5, 8, 2, 0, 1, 1⟩) ∧
      elapsedBy (ops.map (·.moment.reply)) = 8 := by
  have hcontent : brittle.content.resolve =
      .ok { length := .finite 4, delay := 3, failAfter := some 2 } := by rfl
  have hrun : run listed brittle 5
      [2362232015, 0, 0, 3221225472, 0, 0, 3221225472, 0, 0, 2362232015, 0, 0, 3221225472] =
      .ok (.ok ⟨5, 8, 2, 0, 1, 1⟩) := by cbv
  obtain ⟨-, hfault, hcounts⟩ := run_never_violated hcontent listed 5
    [2362232015, 0, 0, 3221225472, 0, 0, 3221225472, 0, 0, 2362232015, 0, 0, 3221225472]
  -- The soak has a report, so its operations have answers and their time fits.
  cases hledger : ledger listed
      (.ofTrack {} { length := .finite 4, delay := 3, failAfter := some 2 }) 4 5
      [2362232015, 0, 0, 3221225472, 0, 0, 3221225472, 0, 0, 2362232015, 0, 0, 3221225472]
      (.ofTrack {} { length := .finite 4, delay := 3, failAfter := some 2 }) with
  | error fault => rcases hfault fault hledger with hstops | hstops <;> cases hrun.symm.trans hstops
  | ok ops =>
    obtain ⟨hanswers, hover⟩ := hcounts ops hledger
    rcases Nat.lt_or_ge (elapsedBy (ops.map (·.moment.reply))) UInt64.size with hfits | hlarge
    · obtain ⟨report, hreport, -, -, -, -, hadvanced⟩ := hanswers hfits
      rw [hrun] at hreport
      cases hreport
      exact ⟨ops, rfl, hrun, hadvanced.symm⟩
    · cases hrun.symm.trans (hover hlarge)

/-! ## A soak that takes too long to count -/

/-- Two words that are accepted make an advance, if the first one chooses it. -/
theorem draw_of_words {s s₁ s₂ : σ} {w wide : Nat} {span : Nat}
    (hword : Draw.word next s = (w, s₁)) (hwide : Draw.doubleWord next s₁ = (wide, s₂))
    (hchoice : w * 100 % (1 <<< 32) ≤ Draw.zone 32 100 ∧ (w * 100) >>> 32 < 55)
    (hbudget : wide * (longestStep span + 1) % (1 <<< 64) ≤ Draw.zone 64 (longestStep span + 1)) :
    draw next span s = .ok (.advance ((wide * (longestStep span + 1)) >>> 64), s₂) := by
  have hfirst : Draw.choice? next 100 s = some ((w * 100) >>> 32, s₁) :=
    Draw.below?_of_le hword hchoice.1
  have hsecond : Draw.upTo? next (longestStep span) s₁ =
      some ((wide * (longestStep span + 1)) >>> 64, s₂) := Draw.below?_of_le hwide hbudget
  simp only [draw, hfirst, hsecond, orEndless, bind_ok, if_pos hchoice.2]
  rfl

/-- An action that is drawn for a player that has not failed is its next operation. -/
theorem operation_of_draw {a : Action} {reply : Reply} (hfailed : p.lifecycle ≠ .failed)
    (hdraw : draw next span source = .ok (a, source')) (hact : p.act a = some (reply, q)) :
    operation next fresh span source p = .ok (⟨false, ⟨p, a, reply, q⟩⟩, source') := by
  simp only [operation, replaces, if_neg hfailed, bind_ok, hdraw, Bool.false_eq_true,
    if_false, hact, orEndless]
  rfl

/-- A track that lasts nearly as long as the time line. -/
def longTrack : Track := { duration := .ofNat 18446744073709551610 }

/-- The first words of the seed ninety-four. -/
def wordsOfNinetyFour : List UInt32 :=
  [739888646, 2573761280, 723065749, 151748251, 219600060, 4055688561, 353201624, 2995789181,
    3182402932, 2106243027, 659779282, 3552078350, 4178423295, 688492226, 2051220828, 3819254548]

/-- The stream of the seed ninety-four, of which this many words were taken. -/
def behind (taken : Nat) : ChaCha :=
  { key := (ChaCha.ofSeed 94).key, counter := 1, ahead := wordsOfNinetyFour.drop taken }

theorem next_ofSeed_ninety_four : ChaCha.next (ChaCha.ofSeed 94) = (739888646, behind 1) := by
  have hahead : (ChaCha.ofSeed 94).ahead = [] := rfl
  have hblock : (ChaCha.block (ChaCha.ofSeed 94).key (ChaCha.ofSeed 94).counter).toList =
      wordsOfNinetyFour := by decide +kernel
  rw [ChaCha.next, hahead]
  dsimp only
  rw [hblock]
  rfl

/-- The time that an idle player lets pass once it is ready. -/
def idling (budget : Nat) : Operation :=
  let ready := { Player.ofTrack longTrack {} with announced := true }
  ⟨false, ready, .advance budget, .reported ⟨.noReport, budget⟩, ready⟩

theorem operation_behind (taken : Nat) {w wide : Nat}
    (hword : Draw.word ChaCha.next (behind taken) = (w, behind (taken + 1)))
    (hwide : Draw.doubleWord ChaCha.next (behind (taken + 1)) = (wide, behind (taken + 3)))
    (hchoice : w * 100 % (1 <<< 32) ≤ Draw.zone 32 100 ∧ (w * 100) >>> 32 < 55)
    (hbudget : wide * (longestStep 18446744073709551610 + 1) % (1 <<< 64) ≤
      Draw.zone 64 (longestStep 18446744073709551610 + 1)) :
    operation ChaCha.next (.ofTrack longTrack {}) 18446744073709551610 (behind taken)
        (idling 0).moment.before =
      .ok (idling ((wide * (longestStep 18446744073709551610 + 1)) >>> 64), behind (taken + 3)) :=
  operation_of_draw (by decide) (draw_of_words hword hwide hchoice hbudget)
    (Player.act_advance_eq_some_iff.mpr
      ⟨_, Player.advance_eq_iff.mpr (.idle rfl (Nat.zero_le _) rfl), rfl⟩)

/-- The time of four advances, the first one of which makes an idle player ready, does not fit its
word, although all their draws answer. -/
theorem seeded_longTrack_overflows :
    ∃ ops, ledger ChaCha.next (.ofTrack longTrack {})
        (Soak.span (Player.ofTrack longTrack {}).params) 4 (ChaCha.ofSeed 94)
        (.ofTrack longTrack {}) = .ok ops ∧
      elapsedBy (ops.map (·.moment.reply)) = 23171713298922811522 ∧
      seeded { track := longTrack } 94 4 = .error .overflow := by
  have hspan : Soak.span (Player.ofTrack longTrack {}).params = 18446744073709551610 := by decide
  have hready : operation ChaCha.next (.ofTrack longTrack {}) 18446744073709551610
      (ChaCha.ofSeed 94) (.ofTrack longTrack {}) =
        .ok (⟨false, .ofTrack longTrack {}, .advance 1552771873693252991,
          .reported ⟨.trackReady, 0⟩, (idling 0).moment.before⟩, behind 3) := by
    have hword : Draw.word ChaCha.next (ChaCha.ofSeed 94) = (739888646, behind 1) := by
      rw [Draw.word, next_ofSeed_ninety_four]
      rfl
    exact operation_of_draw (by decide)
      (draw_of_words hword rfl (by decide +kernel) (by decide +kernel)) rfl
  have hsecond := operation_behind 3 rfl rfl (by decide +kernel) (by decide +kernel)
  have hthird := operation_behind 6 rfl rfl (by decide +kernel) (by decide +kernel)
  have hfourth := operation_behind 9 rfl rfl (by decide +kernel) (by decide +kernel)
  have hledger : ledger ChaCha.next (.ofTrack longTrack {})
      (Soak.span (Player.ofTrack longTrack {}).params) 4 (ChaCha.ofSeed 94)
      (.ofTrack longTrack {}) =
        .ok [⟨false, .ofTrack longTrack {}, .advance 1552771873693252991,
            .reported ⟨.trackReady, 0⟩, (idling 0).moment.before⟩, idling 8709524866237950557,
          idling 6834158259315150525, idling 7628030173369710440] := by
    rw [hspan]
    exact ledger_cons hready (ledger_cons hsecond (ledger_cons hthird (ledger_cons hfourth rfl)))
  have hcontent : ({ track := longTrack } : Scenario).content.resolve = .ok {} := rfl
  have hrun := run_eq hcontent 4 (ChaCha.ofSeed 94) hledger
  rw [Report.checked_of_lt (by decide)] at hrun
  exact ⟨_, hledger, rfl, hrun⟩

end Playhead.Soak

import Playhead.Proofs.Player.Splitting
import Playhead.Scenario.Transcript

/-!
# Runs in chunks

A run step advances in chunks until its budget is spent or its track has ended. What it comes to is
described by `Runner.Spends`, which knows no chunks: it spends what is left in one piece, or up to
the next boundary and then the rest. Every run in chunks comes to just that (`runChunks_spends`),
and it comes to one thing only (`Spends.unique`), so the size of the chunks cannot be told from the
player, the clock, the last event, the time spent or the boundaries met.
-/

namespace Playhead

/-- Time that an entry stands for. -/
def Entry.elapsed (e : Entry) : Nat :=
  match e.outcome with
  | .advance report => report.elapsed
  | _ => 0

/-- Time that entries stand for together. -/
def totalElapsed : List Entry → Nat
  | [] => 0
  | e :: rest => e.elapsed + totalElapsed rest

/-- The boundaries among the events that entries report, in order. -/
def boundaries (entries : List Entry) : List Event :=
  (Transcript.events ⟨entries⟩).filter Event.isBoundary

/-- Boundaries that a player may still meet before its track ends. -/
def Player.boundariesAhead (p : Player) : Nat :=
  if p.isEnded then 0 else if p.announced then 1 else 2

theorem Player.boundariesAhead_le_patience (p : Player) : p.boundariesAhead ≤ Runner.patience := by
  unfold boundariesAhead Runner.patience
  split
  · omega
  · split <;> omega

theorem Player.boundariesAhead_pos {p : Player} (hactive : p.isEnded = false) :
    0 < p.boundariesAhead := by
  unfold boundariesAhead
  rw [hactive]
  split
  · contradiction
  · split <;> omega

theorem Player.boundariesAhead_lt {p q : Player} {budget : Nat} {report : Report}
    (h : p.advance budget = some (report, q)) (hactive : p.isEnded = false)
    (hboundary : report.event.isBoundary = true) : q.boundariesAhead < p.boundariesAhead := by
  rcases boundary_advance h hboundary with hended | ⟨hfresh, hready⟩
  · have hpos := boundariesAhead_pos hactive
    rw [boundariesAhead, if_pos hended]
    exact hpos
  · rw [boundariesAhead, boundariesAhead, hactive, hfresh, hready]
    split <;> simp

namespace Runner

variable {r s r' : Runner} {a b left t : Nat} {report : Report} {events : List Event}

theorem advance_eq_ok_iff :
    r.advance a = .ok (report, s) ↔ ∃ q, r.player.advance a = some (report, q) ∧
      r.clock + report.elapsed ≤ lastMillis ∧
      s = { player := q, clock := r.clock + report.elapsed, lastEvent := some report.event } := by
  rw [advance, bind_eq_ok_iff]
  constructor
  · rintro ⟨⟨report', q⟩, hadvance, hrest⟩
    obtain ⟨clock, hclock, heq⟩ := bind_eq_ok_iff.mp hrest
    obtain ⟨hroom, rfl⟩ := addMillis_eq_ok_iff.mp hclock
    cases heq
    exact ⟨q, orEndless_eq_ok_iff.mp hadvance, hroom, rfl⟩
  · rintro ⟨q, hadvance, hroom, rfl⟩
    refine ⟨(report, q), orEndless_eq_ok_iff.mpr hadvance, bind_eq_ok_iff.mpr ⟨_, ?_, rfl⟩⟩
    exact addMillis_eq_ok_iff.mpr ⟨hroom, rfl⟩

/-- An advance without an answer goes on for ever, or passes the last instant. -/
theorem advance_eq_error_iff {fault : Fault} :
    r.advance a = .error fault ↔
      fault = .endless ∧ r.player.advance a = none ∨
      fault = .overflow ∧ ∃ report q, r.player.advance a = some (report, q) ∧
        lastMillis < r.clock + report.elapsed := by
  rw [advance, bind_eq_error_iff, orEndless_eq_error_iff]
  refine or_congr Iff.rfl ?_
  constructor
  · rintro ⟨⟨report, q⟩, hadvance, hrest⟩
    rcases bind_eq_error_iff.mp hrest with hclock | ⟨clock, -, heq⟩
    · obtain ⟨hfault, hpast⟩ := addMillis_eq_error_iff.mp hclock
      exact ⟨hfault, report, q, orEndless_eq_ok_iff.mp hadvance, hpast⟩
    · cases heq
  · rintro ⟨hfault, report, q, hadvance, hpast⟩
    refine ⟨(report, q), orEndless_eq_ok_iff.mpr hadvance, bind_eq_error_iff.mpr (.inl ?_)⟩
    exact addMillis_eq_error_iff.mpr ⟨hfault, hpast⟩

/-- What spending `left` comes to: the runner afterwards, the time spent and the boundaries met. -/
inductive Spends : Runner → Nat → Runner → Nat → List Event → Prop where
  | stop {r : Runner} {left : Nat} (h : left = 0 ∨ r.player.isEnded = true) :
      Spends r left r 0 []
  | whole {r s : Runner} {left : Nat} {report : Report} (hleft : left ≠ 0)
      (hactive : r.player.isEnded = false) (hadvance : r.advance left = .ok (report, s))
      (hroutine : report.event.isBoundary = false) : Spends r left s left []
  | boundary {r s r' : Runner} {left t : Nat} {report : Report} {events : List Event}
      (hleft : left ≠ 0) (hactive : r.player.isEnded = false)
      (hadvance : r.advance left = .ok (report, s)) (hboundary : report.event.isBoundary = true)
      (hrest : Spends s (left - report.elapsed) r' t events) :
      Spends r left r' (report.elapsed + t) (report.event :: events)

/-- Spending a budget comes to one thing only. -/
theorem Spends.unique {r₁ r₂ : Runner} {t₁ t₂ : Nat} {events₁ events₂ : List Event}
    (h₁ : Spends r left r₁ t₁ events₁) (h₂ : Spends r left r₂ t₂ events₂) :
    r₁ = r₂ ∧ t₁ = t₂ ∧ events₁ = events₂ := by
  induction h₁ generalizing r₂ t₂ events₂ with
  | stop h =>
    cases h₂ with
    | stop => exact ⟨rfl, rfl, rfl⟩
    | whole hleft hactive => simp [hleft, hactive] at h
    | boundary hleft hactive => simp [hleft, hactive] at h
  | whole hleft hactive hadvance hroutine =>
    cases h₂ with
    | stop h => simp [hleft, hactive] at h
    | whole _ _ hadvance' _ =>
      rw [hadvance] at hadvance'
      cases hadvance'
      exact ⟨rfl, rfl, rfl⟩
    | boundary _ _ hadvance' hboundary =>
      rw [hadvance] at hadvance'
      cases hadvance'
      rw [hroutine] at hboundary
      cases hboundary
  | boundary hleft hactive hadvance hboundary hrest ih =>
    cases h₂ with
    | stop h => simp [hleft, hactive] at h
    | whole _ _ hadvance' hroutine =>
      rw [hadvance] at hadvance'
      cases hadvance'
      rw [hroutine] at hboundary
      cases hboundary
    | boundary _ _ hadvance' _ hrest' =>
      rw [hadvance] at hadvance'
      cases hadvance'
      obtain ⟨rfl, rfl, rfl⟩ := ih hrest'
      exact ⟨rfl, rfl, rfl⟩

/-! ## Chunks of a budget -/

/-- A chunk that met a boundary met what the whole budget would have met. -/
theorem Spends.of_boundary (hcoherent : r.player.Coherent) (hroom : r.player.HasRoom a)
    (hpos : a ≠ 0) (hactive : r.player.isEnded = false) (hadvance : r.advance a = .ok (report, s))
    (hboundary : report.event.isBoundary = true)
    (hrest : Spends s (a + b - report.elapsed) r' t events) :
    Spends r (a + b) r' (report.elapsed + t) (report.event :: events) := by
  obtain ⟨q, hq, hclock, rfl⟩ := advance_eq_ok_iff.mp hadvance
  refine .boundary (by omega) hactive (advance_eq_ok_iff.mpr ⟨q, ?_, hclock, rfl⟩) hboundary hrest
  exact hcoherent.advance_add_of_boundary hroom b hq hboundary

/-- An advance that met nothing leaves a runner whose next advance the longer one ends with. -/
theorem advance_add_of_routine {report' : Report} {s' : Runner} (hcoherent : r.player.Coherent)
    (hroom : r.player.HasRoom a) (hactive : r.player.isEnded = false)
    (hadvance : r.advance a = .ok (report, s)) (hroutine : report.event.isBoundary = false)
    (hnext : s.advance b = .ok (report', s')) :
    r.advance (a + b) = .ok ({ report' with elapsed := a + report'.elapsed }, s') := by
  obtain ⟨q, hq, -, rfl⟩ := advance_eq_ok_iff.mp hadvance
  obtain ⟨q', hq', hclock, rfl⟩ := advance_eq_ok_iff.mp hnext
  obtain ⟨hspent, -⟩ := Player.routine_advance hq hactive hroutine
  have hjoin := hcoherent.advance_add_of_routine hroom b hq hroutine hspent
  rw [hq', Option.map_some] at hjoin
  rw [hspent, Nat.add_assoc] at hclock
  exact advance_eq_ok_iff.mpr ⟨q', hjoin, hclock, by simp only [hspent, Nat.add_assoc]⟩

/-- A chunk that met nothing is time that the whole budget would have spent, too. -/
theorem Spends.of_routine (hcoherent : r.player.Coherent) (hroom : r.player.HasRoom a)
    (hpos : a ≠ 0) (hactive : r.player.isEnded = false) (hadvance : r.advance a = .ok (report, s))
    (hroutine : report.event.isBoundary = false) (hrest : Spends s b r' t events) :
    Spends r (a + b) r' (a + t) events := by
  have hjoin {report' : Report} {s' : Runner} (hnext : s.advance b = .ok (report', s')) :=
    advance_add_of_routine hcoherent hroom hactive hadvance hroutine hnext
  cases hrest with
  | stop h =>
    obtain ⟨q, hq, -, rfl⟩ := advance_eq_ok_iff.mp hadvance
    obtain ⟨-, hactive'⟩ := Player.routine_advance hq hactive hroutine
    have hzero : b = 0 := by simpa [hactive'] using h
    subst hzero
    exact .whole hpos hactive hadvance hroutine
  | whole hleft _ hnext hroutine' =>
    exact .whole (by omega) hactive (hjoin hnext) hroutine'
  | boundary hleft _ hnext hboundary' hmore =>
    rw [← Nat.add_assoc]
    exact .boundary (by omega) hactive (hjoin hnext) hboundary' (by
      simpa only [Nat.add_sub_add_left] using hmore)

/-! ## Entries of a run -/

variable {step chunk waiting : Nat} {label : String} {entries done : List Entry}

theorem totalElapsed_entry_cons (r : Runner) (report : Report) :
    totalElapsed (r.entry step label (.advance report) :: entries) =
      report.elapsed + totalElapsed entries := rfl

theorem boundaries_entry_cons_of_boundary (r : Runner)
    (hboundary : report.event.isBoundary = true) :
    boundaries (r.entry step label (.advance report) :: entries) =
      report.event :: boundaries entries := by
  simp [boundaries, Transcript.events, entry, Outcome.event?, hboundary]

theorem boundaries_entry_cons_of_routine (r : Runner)
    (hroutine : report.event.isBoundary = false) :
    boundaries (r.entry step label (.advance report) :: entries) = boundaries entries := by
  simp [boundaries, Transcript.events, entry, Outcome.event?, hroutine]

/-- One chunk and what the rest comes to are what the whole comes to. -/
theorem Spends.of_chunk (hcoherent : r.player.Coherent) (hroom : r.player.HasRoom left)
    (hpos : a ≠ 0) (hle : a ≤ left) (hactive : r.player.isEnded = false)
    (hadvance : r.advance a = .ok (report, s))
    (hrest : Spends s (left - report.elapsed) r' (totalElapsed entries) (boundaries entries)) :
    Spends r left r' (totalElapsed (s.entry step label (.advance report) :: entries))
      (boundaries (s.entry step label (.advance report) :: entries)) := by
  obtain ⟨q, hq, -⟩ := advance_eq_ok_iff.mp hadvance
  have hsplit : a + (left - a) = left := Nat.add_sub_cancel' hle
  rw [← hsplit] at hroom hrest ⊢
  rw [totalElapsed_entry_cons]
  cases hevent : report.event.isBoundary with
  | true =>
    rw [boundaries_entry_cons_of_boundary s hevent]
    exact .of_boundary hcoherent hroom.mono hpos hactive hadvance hevent hrest
  | false =>
    obtain ⟨hspent, -⟩ := Player.routine_advance hq hactive hevent
    rw [boundaries_entry_cons_of_routine s hevent, hspent]
    rw [hspent, Nat.add_sub_cancel_left] at hrest
    exact .of_routine hcoherent hroom.mono hpos hactive hadvance hevent hrest

theorem after_chunk (hcoherent : r.player.Coherent) (hroom : r.player.HasRoom left)
    (hclock : r.clock + left ≤ lastMillis) (hle : a ≤ left)
    (hadvance : r.advance a = .ok (report, s)) :
    s.player.Coherent ∧ s.player.HasRoom (left - report.elapsed) ∧
      s.clock + (left - report.elapsed) ≤ lastMillis := by
  obtain ⟨q, hq, -, rfl⟩ := advance_eq_ok_iff.mp hadvance
  have hspent := Player.elapsed_le_budget hq
  refine ⟨hcoherent.advance hq, hroom.advance hle hq, ?_⟩
  dsimp only
  omega

/-- A chunk that takes no time has met a boundary. -/
theorem boundariesAhead_lt_of_still (hadvance : r.advance a = .ok (report, s)) (hpos : a ≠ 0)
    (hactive : r.player.isEnded = false) (hstill : report.elapsed = 0) :
    s.player.boundariesAhead < r.player.boundariesAhead := by
  obtain ⟨q, hq, -, rfl⟩ := advance_eq_ok_iff.mp hadvance
  cases hevent : report.event.isBoundary with
  | true => exact Player.boundariesAhead_lt hq hactive hevent
  | false =>
    obtain ⟨hspent, -⟩ := Player.routine_advance hq hactive hevent
    omega

/-- A run in chunks comes to an end, and it comes to what spending its budget comes to. -/
theorem runChunks_spends (step : Nat) (label : String) (done : List Entry) (hchunk : 1 ≤ chunk)
    (hcoherent : r.player.Coherent) (hroom : r.player.HasRoom left)
    (hclock : r.clock + left ≤ lastMillis) (hwaiting : r.player.boundariesAhead ≤ waiting) :
    ∃ r' entries, runChunks step label chunk left waiting r done =
      .ok (r', done.reverse ++ entries) ∧
        Spends r left r' (totalElapsed entries) (boundaries entries) := by
  induction left, waiting, r, done using runChunks.induct step label chunk with
  | case1 left waiting r done hstop =>
    refine ⟨r, [], ?_, .stop (by simpa using hstop)⟩
    rw [runChunks, if_pos hstop, List.append_nil]
  | case2 left waiting r done hstop fault hfault =>
    obtain ⟨report, q, hq⟩ := Player.exists_advance hroom.fits (min chunk left)
    have hspent := Player.elapsed_le_budget hq
    rw [advance_eq_ok_iff.mpr ⟨q, hq, by omega, rfl⟩] at hfault
    cases hfault
  | case3 left r done hstop report s hadvance hstill =>
    obtain ⟨hpos, hactive⟩ : left ≠ 0 ∧ r.player.isEnded = false := by simpa using hstop
    -- A player that goes on has a boundary ahead, so waiting was allowed.
    have hahead := Player.boundariesAhead_pos hactive
    omega
  | case4 left r done hstop report s hadvance done' hstill waiting ih =>
    obtain ⟨hpos, hactive⟩ : left ≠ 0 ∧ r.player.isEnded = false := by simpa using hstop
    have hmin : min chunk left ≠ 0 := by omega
    have hle := Nat.min_le_right chunk left
    have hleft : left - report.elapsed = left := by omega
    obtain ⟨hcoherent', hroom', hclock'⟩ := after_chunk hcoherent hroom hclock hle hadvance
    have hahead := boundariesAhead_lt_of_still hadvance hmin hactive hstill
    obtain ⟨r', entries, hrun, hspends⟩ :=
      ih hcoherent' (hleft ▸ hroom') (by omega) (by omega)
    -- The rest has as much left as before, but one boundary less ahead.
    rw [← hleft] at hspends
    refine ⟨r', s.entry step label (.advance report) :: entries, ?_,
      .of_chunk hcoherent hroom hmin hle hactive hadvance hspends⟩
    rw [runChunks, if_neg hstop]
    simp only [hadvance, hstill, if_true]
    rw [hrun, List.reverse_cons, List.append_assoc, List.singleton_append]
  | case5 left waiting r done hstop report s hadvance done' hmoves ih =>
    -- Time passed, and the rest may wait as long as any run.
    obtain ⟨hpos, hactive⟩ : left ≠ 0 ∧ r.player.isEnded = false := by simpa using hstop
    have hmin : min chunk left ≠ 0 := by omega
    have hle := Nat.min_le_right chunk left
    obtain ⟨hcoherent', hroom', hclock'⟩ := after_chunk hcoherent hroom hclock hle hadvance
    obtain ⟨r', entries, hrun, hspends⟩ :=
      ih hcoherent' hroom' hclock' s.player.boundariesAhead_le_patience
    refine ⟨r', s.entry step label (.advance report) :: entries, ?_,
      .of_chunk hcoherent hroom hmin hle hactive hadvance hspends⟩
    rw [runChunks, if_neg hstop]
    simp only [hadvance, if_neg hmoves]
    rw [hrun, List.reverse_cons, List.append_assoc, List.singleton_append]

/-- The size of the chunks makes no difference: two runs of the same budget leave the same player,
clock and last event, and their entries stand for the same time and the same boundaries. -/
theorem run_chunk_size_irrelevant {budget chunk₁ chunk₂ : Nat} (index : Nat)
    (hreach : r.player.Reachable) (hroom : r.player.HasRoom budget)
    (hclock : r.clock + budget ≤ lastMillis) (h₁ : 1 ≤ chunk₁) (h₂ : 1 ≤ chunk₂) :
    ∃ r' entries₁ entries₂,
      r.apply index (.run chunk₁ budget) = .ok (r', .ok entries₁) ∧
      r.apply index (.run chunk₂ budget) = .ok (r', .ok entries₂) ∧
      totalElapsed entries₁ = totalElapsed entries₂ ∧
      boundaries entries₁ = boundaries entries₂ := by
  have hpatience := r.player.boundariesAhead_le_patience
  obtain ⟨r₁, entries₁, hrun₁, hspends₁⟩ := runChunks_spends index
    (Step.run chunk₁ budget).label [] h₁ hreach.coherent hroom hclock hpatience
  obtain ⟨r₂, entries₂, hrun₂, hspends₂⟩ := runChunks_spends index
    (Step.run chunk₂ budget).label [] h₂ hreach.coherent hroom hclock hpatience
  obtain ⟨rfl, helapsed, hboundaries⟩ := hspends₁.unique hspends₂
  refine ⟨r₁, entries₁, entries₂, ?_, ?_, helapsed, hboundaries⟩
  · simp only [apply, hrun₁, Except.map, List.reverse_nil, List.nil_append]
  · simp only [apply, hrun₂, Except.map, List.reverse_nil, List.nil_append]

/-- Chunks of one and of five milliseconds over buffering and both passes of a track. -/
theorem run_chunk_size_irrelevant_to_end :
    ∃ r : Runner, r.player.Reachable ∧ r.player.HasRoom 12 ∧ r.clock + 12 ≤ lastMillis ∧
      ∃ r' entries₁ entries₂,
        r.apply 0 (.run 1 12) = .ok (r', .ok entries₁) ∧
        r.apply 0 (.run 5 12) = .ok (r', .ok entries₂) ∧
        totalElapsed entries₁ = totalElapsed entries₂ ∧
        boundaries entries₁ = boundaries entries₂ := by
  have hplay : (Player.new { repeats := .times 2, extent := .finite 4, delay := 2 }).run
      [.command .play] = some ([.acted true],
        ⟨{ repeats := .times 2, extent := .finite 4, delay := 2 }, 2, 0, 0, .playing, false⟩) := by
    cbv
  have hreach : Player.Reachable
      ⟨{ repeats := .times 2, extent := .finite 4, delay := 2 }, 2, 0, 0, .playing, false⟩ :=
    ⟨_, _, _, hplay⟩
  have hroom : Player.HasRoom
      ⟨{ repeats := .times 2, extent := .finite 4, delay := 2 }, 2, 0, 0, .playing, false⟩ 12 := by
    constructor
    · intro length hext
      cases hext
      decide
    · intro hunbounded
      cases hunbounded
  have hclock : (0 : Nat) + 12 ≤ lastMillis := by decide
  exact ⟨{ player := _ }, hreach, hroom, hclock,
    run_chunk_size_irrelevant 0 hreach hroom hclock (by decide) (by decide)⟩

end Runner

end Playhead

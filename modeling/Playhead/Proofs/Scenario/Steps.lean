import Playhead.Proofs.Scenario.Chunks

/-!
# What a step does

Advance steps and run steps let time pass in slices, each of them one advance and one entry
(`Runner.Slices`); the slices of a run step are chunks of what is left of its budget
(`Runner.Chunks`). `Runner.Applies` says for every step what it leaves, and `Runner.follow` applies
one step after another, whether their expectations hold or not. Every entry carries the time of the
clock that was behind it (`Clocked`).
-/

namespace Playhead

/-! ## Clocks of entries -/

/-- The clock behind some entries. -/
def clockAfter (clock : Nat) (entries : List Entry) : Nat :=
  (entries.getLast?.map Entry.clock).getD clock

theorem clockAfter_append (clock : Nat) (entries more : List Entry) :
    clockAfter clock (entries ++ more) = clockAfter (clockAfter clock entries) more := by
  unfold clockAfter
  rw [List.getLast?_append]
  cases more.getLast? <;> rfl

theorem clockAfter_cons (clock : Nat) (e : Entry) (rest : List Entry) :
    clockAfter clock (e :: rest) = clockAfter e.clock rest :=
  clockAfter_append clock [e] rest

/-- The clock of every entry is the one before it and the time that the entry stands for. -/
def Clocked (clock : Nat) : List Entry → Prop
  | [] => True
  | e :: rest => e.clock = clock + e.elapsed ∧ Clocked e.clock rest

theorem Clocked.append {clock : Nat} {entries more : List Entry} (h : Clocked clock entries)
    (hmore : Clocked (clockAfter clock entries) more) : Clocked clock (entries ++ more) := by
  induction entries generalizing clock with
  | nil => exact hmore
  | cons e rest ih =>
    rw [clockAfter_cons] at hmore
    exact ⟨h.1, ih h.2 hmore⟩

theorem Clocked.clockAfter_eq {clock : Nat} {entries : List Entry} (h : Clocked clock entries) :
    clockAfter clock entries = clock + totalElapsed entries := by
  induction entries generalizing clock with
  | nil => rfl
  | cons e rest ih =>
    rw [clockAfter_cons, ih h.2, h.1, totalElapsed, Nat.add_assoc]

/-! ## Events of entries -/

/-- The event of the last entry that reports one. -/
def eventAfter (event : Option Event) (entries : List Entry) : Option Event :=
  (Transcript.events ⟨entries⟩).getLast?.or event

theorem eventAfter_append (event : Option Event) (entries more : List Entry) :
    eventAfter event (entries ++ more) = eventAfter (eventAfter event entries) more := by
  simp only [eventAfter, Transcript.events, List.filterMap_append, List.getLast?_append,
    Option.or_assoc]

namespace Runner

variable {r s r' : Runner} {step budget times chunk left waiting index : Nat} {label : String}
  {report : Report} {entries more done : List Entry}

theorem clock_of_advance (h : r.advance budget = .ok (report, s)) :
    s.clock = r.clock + report.elapsed := by
  obtain ⟨q, -, -, rfl⟩ := advance_eq_ok_iff.mp h
  rfl

theorem lastEvent_of_advance (h : r.advance budget = .ok (report, s)) :
    s.lastEvent = some report.event := by
  obtain ⟨q, -, -, rfl⟩ := advance_eq_ok_iff.mp h
  rfl

/-! ## Slices and chunks -/

/-- Advances in a row, and the entries that they leave. -/
inductive Slices (step : Nat) (label : String) : Runner → List Entry → Runner → Prop where
  | nil (r : Runner) : Slices step label r [] r
  | cons {r s r' : Runner} {budget : Nat} {report : Report} {entries : List Entry}
      (hadvance : r.advance budget = .ok (report, s)) (hrest : Slices step label s entries r') :
      Slices step label r (s.entry step label (.advance report) :: entries) r'

/-- Chunks of a budget, as long as some of it is left and the track has not ended. -/
inductive Chunks (step : Nat) (label : String) (chunk : Nat) :
    Nat → Runner → List Entry → Runner → Prop where
  | stop {left : Nat} {r : Runner} (h : left = 0 ∨ r.player.isEnded = true) :
      Chunks step label chunk left r [] r
  | chunk {left : Nat} {r s r' : Runner} {report : Report} {entries : List Entry}
      (hleft : left ≠ 0) (hactive : r.player.isEnded = false)
      (hadvance : r.advance (min chunk left) = .ok (report, s))
      (hrest : Chunks step label chunk (left - report.elapsed) s entries r') :
      Chunks step label chunk left r (s.entry step label (.advance report) :: entries) r'

theorem Chunks.slices (h : Chunks step label chunk left r entries r') :
    Slices step label r entries r' := by
  induction h with
  | stop => exact .nil _
  | chunk _ _ hadvance _ ih => exact .cons hadvance ih

/-- The entries account for the clock and the last event: both are those of the last entry that has
any. -/
structure Accounts (r : Runner) (entries : List Entry) (r' : Runner) : Prop where
  clocked : Clocked r.clock entries
  clock_eq : r'.clock = clockAfter r.clock entries
  lastEvent_eq : r'.lastEvent = eventAfter r.lastEvent entries

theorem Accounts.refl (r : Runner) : r.Accounts [] r := ⟨trivial, rfl, rfl⟩

theorem Accounts.trans (h : r.Accounts entries s) (hmore : s.Accounts more r') :
    r.Accounts (entries ++ more) r' where
  clocked := h.clocked.append (h.clock_eq ▸ hmore.clocked)
  clock_eq := by rw [hmore.clock_eq, h.clock_eq, clockAfter_append]
  lastEvent_eq := by rw [hmore.lastEvent_eq, h.lastEvent_eq, eventAfter_append]

/-- An action that takes no time and reports nothing. -/
theorem Accounts.still {outcome : Outcome} (hclock : s.clock = r.clock)
    (hlast : s.lastEvent = r.lastEvent) (hevent : outcome.event? = none) :
    r.Accounts [s.entry step label outcome] s := by
  have helapsed : (s.entry step label outcome).elapsed = 0 := by
    cases outcome with
    | advance report => cases hevent
    | command effect => rfl
    | checked => rfl
  refine ⟨⟨?_, trivial⟩, rfl, ?_⟩
  · rw [helapsed, Nat.add_zero]
    exact hclock
  · simp [eventAfter, Transcript.events, entry, hevent, hlast]

theorem Accounts.advance (h : r.advance budget = .ok (report, s)) :
    r.Accounts [s.entry step label (.advance report)] s :=
  ⟨⟨clock_of_advance h, trivial⟩, rfl, lastEvent_of_advance h⟩

theorem Slices.accounts (h : Slices step label r entries r') : r.Accounts entries r' := by
  induction h with
  | nil r => exact .refl r
  | cons hadvance _ ih => exact (Accounts.advance hadvance).trans ih

theorem slices_of_advanceTimes
    (hrun : advanceTimes step label budget times r done = .ok (r', entries)) :
    ∃ new, entries = done.reverse ++ new ∧ Slices step label r new r' := by
  induction times generalizing r done with
  | zero =>
    cases hrun
    exact ⟨[], (List.append_nil _).symm, .nil _⟩
  | succ times ih =>
    rw [advanceTimes] at hrun
    split at hrun
    · cases hrun
    · next report s hadvance =>
      obtain ⟨new, rfl, hnew⟩ := ih hrun
      exact ⟨_ :: new, by rw [List.reverse_cons, List.append_assoc]; rfl, .cons hadvance hnew⟩

theorem chunks_of_runChunks
    (hrun : runChunks step label chunk left waiting r done = .ok (r', entries)) :
    ∃ new, entries = done.reverse ++ new ∧ Chunks step label chunk left r new r' := by
  induction left, waiting, r, done using runChunks.induct step label chunk with
  | case1 left waiting r done hstop =>
    rw [runChunks, if_pos hstop] at hrun
    cases hrun
    exact ⟨[], (List.append_nil _).symm, .stop (by simpa using hstop)⟩
  | case2 left waiting r done hstop fault hfault =>
    rw [runChunks, if_neg hstop, hfault] at hrun
    cases hrun
  | case3 left r done hstop report s hadvance hstill =>
    rw [runChunks, if_neg hstop] at hrun
    simp only [hadvance, hstill, if_true] at hrun
    cases hrun
  | case4 left r done hstop report s hadvance done' hstill waiting ih =>
    obtain ⟨hleft, hactive⟩ : left ≠ 0 ∧ r.player.isEnded = false := by simpa using hstop
    rw [runChunks, if_neg hstop] at hrun
    simp only [hadvance, hstill, if_true] at hrun
    obtain ⟨new, rfl, hnew⟩ := ih hrun
    refine ⟨_ :: new, by rw [List.reverse_cons, List.append_assoc]; rfl,
      .chunk hleft hactive hadvance ?_⟩
    rw [hstill, Nat.sub_zero]
    exact hnew
  | case5 left waiting r done hstop report s hadvance done' hmoves ih =>
    obtain ⟨hleft, hactive⟩ : left ≠ 0 ∧ r.player.isEnded = false := by simpa using hstop
    rw [runChunks, if_neg hstop] at hrun
    simp only [hadvance, if_neg hmoves] at hrun
    obtain ⟨new, rfl, hnew⟩ := ih hrun
    exact ⟨_ :: new, by rw [List.reverse_cons, List.append_assoc]; rfl,
      .chunk hleft hactive hadvance hnew⟩

/-! ## Steps -/

/-- What a step leaves: the runner afterwards, and the entries or the failure. -/
inductive Applies (r : Runner) (index : Nat) :
    Step → Runner → Except Unmet (List Entry) → Prop where
  | command {c : Command} {player : Player} {effect : Bool}
      (hperform : r.player.perform c = (player, effect)) :
      Applies r index (.command c) { r with player }
        (.ok [entry { r with player } index c.label (.command effect)])
  | advance {budget times : Nat} {r' : Runner} {entries : List Entry}
      (hslices : Slices index (Step.advance budget times).label r entries r') :
      Applies r index (.advance budget times) r' (.ok entries)
  | run {chunk budget : Nat} {r' : Runner} {entries : List Entry}
      (hchunks : Chunks index (Step.run chunk budget).label chunk budget r entries r') :
      Applies r index (.run chunk budget) r' (.ok entries)
  | pass {e : Expectation} (hholds : r.problems e = []) :
      Applies r index (.expect e) r (.ok [r.entry index "expect" .checked])
  | fail {e : Expectation} (hfails : r.problems e ≠ []) :
      Applies r index (.expect e) r (.error ⟨index, r.problems e⟩)

theorem applies_of_apply {s : Step} {result : Except Unmet (List Entry)}
    (happly : r.apply index s = .ok (r', result)) : r.Applies index s r' result := by
  cases s with
  | command c =>
    cases happly
    exact .command rfl
  | advance budget times =>
    obtain ⟨⟨_, entries⟩, hrun, heq⟩ := map_eq_ok_iff.mp happly
    cases heq
    obtain ⟨new, rfl, hnew⟩ := slices_of_advanceTimes hrun
    exact .advance hnew
  | run chunk budget =>
    obtain ⟨⟨_, entries⟩, hrun, heq⟩ := map_eq_ok_iff.mp happly
    cases heq
    obtain ⟨new, rfl, hnew⟩ := chunks_of_runChunks hrun
    exact .run hnew
  | expect e =>
    rw [apply] at happly
    split at happly
    · next hholds =>
      cases happly
      exact .pass hholds
    · next hfails =>
      cases happly
      exact .fail hfails

/-- An expectation that fails changes nothing. -/
theorem eq_of_apply_error {s : Step} {unmet : Unmet}
    (happly : r.apply index s = .ok (r', .error unmet)) : r' = r ∧ unmet.step = index := by
  cases applies_of_apply happly with
  | fail => exact ⟨rfl, rfl⟩

/-! ## Steps without an answer -/

/-- One of so many advances in a row has no answer. -/
inductive StuckWithin (fault : Fault) (budget : Nat) : Nat → Runner → Prop where
  | here {times : Nat} {r : Runner} (hfault : r.advance budget = .error fault) :
      StuckWithin fault budget (times + 1) r
  | later {times : Nat} {r s : Runner} {report : Report}
      (hadvance : r.advance budget = .ok (report, s)) (hrest : StuckWithin fault budget times s) :
      StuckWithin fault budget (times + 1) r

/-- An advance of a run in chunks has no answer. -/
inductive Stuck (fault : Fault) (chunk : Nat) : Nat → Runner → Prop where
  | here {left : Nat} {r : Runner} (hleft : left ≠ 0) (hactive : r.player.isEnded = false)
      (hfault : r.advance (min chunk left) = .error fault) : Stuck fault chunk left r
  | later {left : Nat} {r s : Runner} {report : Report} (hleft : left ≠ 0)
      (hactive : r.player.isEnded = false)
      (hadvance : r.advance (min chunk left) = .ok (report, s))
      (hrest : Stuck fault chunk (left - report.elapsed) s) : Stuck fault chunk left r

/-- A step in which an advance has no answer. -/
inductive Breaks (fault : Fault) (r : Runner) : Step → Prop where
  | advance {budget times : Nat} (hstuck : StuckWithin fault budget times r) :
      Breaks fault r (.advance budget times)
  | run {chunk budget : Nat} (hstuck : Stuck fault chunk budget r) :
      Breaks fault r (.run chunk budget)

variable {fault : Fault}

theorem stuckWithin_succ_iff_of_advance (hadvance : r.advance budget = .ok (report, s)) :
    StuckWithin fault budget (times + 1) r ↔ StuckWithin fault budget times s := by
  constructor
  · intro h
    cases h with
    | here hfault =>
      rw [hadvance] at hfault
      cases hfault
    | later hadvance' hrest =>
      rw [hadvance] at hadvance'
      cases hadvance'
      exact hrest
  · exact .later hadvance

theorem advanceTimes_eq_error_iff (step : Nat) (label : String) (done : List Entry) :
    advanceTimes step label budget times r done = .error fault ↔
      StuckWithin fault budget times r := by
  induction times generalizing r done with
  | zero => exact iff_of_false nofun nofun
  | succ times ih =>
    rw [advanceTimes]
    cases hadvance : r.advance budget with
    | error fault' =>
      constructor
      · intro h
        cases h
        exact .here hadvance
      · intro h
        cases h with
        | here hfault =>
          rw [hadvance] at hfault
          cases hfault
          rfl
        | later hadvance' => cases hadvance.symm.trans hadvance'
    | ok answer =>
      obtain ⟨report, s⟩ := answer
      rw [stuckWithin_succ_iff_of_advance hadvance]
      exact ih _

theorem not_stuck_of_stop (hstop : left = 0 ∨ r.player.isEnded = true) :
    ¬Stuck fault chunk left r := by
  intro h
  cases h with
  | here hleft hactive => simp [hleft, hactive] at hstop
  | later hleft hactive => simp [hleft, hactive] at hstop

theorem stuck_iff_of_advance (hleft : left ≠ 0) (hactive : r.player.isEnded = false)
    (hadvance : r.advance (min chunk left) = .ok (report, s)) :
    Stuck fault chunk left r ↔ Stuck fault chunk (left - report.elapsed) s := by
  constructor
  · intro h
    cases h with
    | here _ _ hfault =>
      rw [hadvance] at hfault
      cases hfault
    | later _ _ hadvance' hrest =>
      rw [hadvance] at hadvance'
      cases hadvance'
      exact hrest
  · exact .later hleft hactive hadvance

/-- Waiting is never what keeps a run in chunks from its end. -/
theorem runChunks_eq_error_iff (step : Nat) (label : String) (done : List Entry)
    (hchunk : 1 ≤ chunk) (hwaiting : r.player.boundariesAhead ≤ waiting) :
    runChunks step label chunk left waiting r done = .error fault ↔ Stuck fault chunk left r := by
  induction left, waiting, r, done using runChunks.induct step label chunk with
  | case1 left waiting r done hstop =>
    rw [runChunks, if_pos hstop]
    simp only [Bool.or_eq_true, decide_eq_true_eq] at hstop
    simp [not_stuck_of_stop hstop]
  | case2 left waiting r done hstop fault' hfault =>
    obtain ⟨hleft, hactive⟩ : left ≠ 0 ∧ r.player.isEnded = false := by simpa using hstop
    rw [runChunks, if_neg hstop]
    simp only [hfault]
    constructor
    · intro h
      cases h
      exact .here hleft hactive hfault
    · intro h
      cases h with
      | here _ _ hfault' =>
        rw [hfault] at hfault'
        cases hfault'
        rfl
      | later _ _ hadvance => cases hfault.symm.trans hadvance
  | case3 left r done hstop report s hadvance hstill =>
    obtain ⟨hleft, hactive⟩ : left ≠ 0 ∧ r.player.isEnded = false := by simpa using hstop
    -- A player that goes on has a boundary ahead, so waiting was allowed.
    have hahead := Player.boundariesAhead_pos hactive
    omega
  | case4 left r done hstop report s hadvance done' hstill waiting ih =>
    obtain ⟨hleft, hactive⟩ : left ≠ 0 ∧ r.player.isEnded = false := by simpa using hstop
    have hahead := boundariesAhead_lt_of_still hadvance (by omega) hactive hstill
    rw [runChunks, if_neg hstop]
    simp only [hadvance, hstill, if_true]
    rw [ih (by omega), stuck_iff_of_advance hleft hactive hadvance, hstill, Nat.sub_zero]
  | case5 left waiting r done hstop report s hadvance done' hmoves ih =>
    obtain ⟨hleft, hactive⟩ : left ≠ 0 ∧ r.player.isEnded = false := by simpa using hstop
    rw [runChunks, if_neg hstop]
    simp only [hadvance, if_neg hmoves]
    rw [ih s.player.boundariesAhead_le_patience, stuck_iff_of_advance hleft hactive hadvance]

theorem apply_run_eq_error_iff (index : Nat) (hchunk : 1 ≤ chunk) :
    r.apply index (.run chunk budget) = .error fault ↔ Stuck fault chunk budget r := by
  rw [apply, map_eq_error_iff]
  exact runChunks_eq_error_iff index _ [] hchunk r.player.boundariesAhead_le_patience

/-- A step has no answer just if one of its advances has none. -/
theorem apply_eq_error_iff (index : Nat) {s : Step}
    (hs : ∀ chunk budget, s = .run chunk budget → 1 ≤ chunk) :
    r.apply index s = .error fault ↔ Breaks fault r s := by
  cases s with
  | command c =>
    constructor <;>
      · intro h
        cases h
  | advance budget times =>
    rw [apply, map_eq_error_iff, advanceTimes_eq_error_iff]
    refine ⟨.advance, ?_⟩
    rintro ⟨hstuck⟩
    exact hstuck
  | run chunk budget =>
    rw [apply_run_eq_error_iff index (hs chunk budget rfl)]
    refine ⟨.run, ?_⟩
    rintro (_ | ⟨hstuck⟩)
    exact hstuck
  | expect e =>
    rw [apply]
    constructor
    · intro h
      split at h <;> cases h
    · intro h
      cases h

/-! ## Steps in a row -/

/-- The entries that a step leaves. -/
def entriesLeft : Except Unmet (List Entry) → List Entry
  | .ok entries => entries
  | .error _ => []

theorem accounts_of_apply {s : Step} {result : Except Unmet (List Entry)}
    (happly : r.apply index s = .ok (r', result)) : r.Accounts (entriesLeft result) r' := by
  cases applies_of_apply happly with
  | command => exact .still rfl rfl rfl
  | advance hslices => exact hslices.accounts
  | run hchunks => exact hchunks.slices.accounts
  | pass => exact .still rfl rfl rfl
  | fail => exact .refl r

/-- Apply steps numbered from `index`, going on behind expectations that fail. -/
def follow (r : Runner) (index : Nat) : List Step → Except Fault (Runner × List Entry)
  | [] => .ok (r, [])
  | s :: rest =>
    match r.apply index s with
    | .error fault => .error fault
    | .ok (r, result) =>
      (r.follow (index + 1) rest).map fun (r, more) => (r, entriesLeft result ++ more)

theorem follow_cons_eq_ok_iff {s : Step} {rest : List Step} :
    r.follow index (s :: rest) = .ok (r', entries) ↔
      ∃ q result more, r.apply index s = .ok (q, result) ∧
        q.follow (index + 1) rest = .ok (r', more) ∧ entries = entriesLeft result ++ more := by
  rw [follow]
  cases happly : r.apply index s with
  | error fault => simp
  | ok answer =>
    obtain ⟨q, result⟩ := answer
    simp only [map_eq_ok_iff, Prod.exists, Prod.mk.injEq, Except.ok.injEq]
    constructor
    · rintro ⟨_, more, hmore, rfl, rfl⟩
      exact ⟨q, result, more, ⟨rfl, rfl⟩, hmore, rfl⟩
    · rintro ⟨_, _, more, ⟨rfl, rfl⟩, hmore, rfl⟩
      exact ⟨_, more, hmore, rfl, rfl⟩

theorem follow_concat {r r' r'' : Runner} {index : Nat} {steps : List Step} {step : Step}
    {entries : List Entry} {result : Except Unmet (List Entry)}
    (hfollow : r.follow index steps = .ok (r', entries))
    (happly : r'.apply (index + steps.length) step = .ok (r'', result)) :
    r.follow index (steps ++ [step]) = .ok (r'', entries ++ entriesLeft result) := by
  induction steps generalizing r index entries with
  | nil =>
    cases hfollow
    rw [List.length_nil, Nat.add_zero] at happly
    simp [follow, happly]
  | cons s rest ih =>
    obtain ⟨q, first, more, hfirst, hmore, rfl⟩ := follow_cons_eq_ok_iff.mp hfollow
    have hindex : index + (s :: rest).length = index + 1 + rest.length := by
      rw [List.length_cons]
      omega
    rw [List.cons_append]
    exact follow_cons_eq_ok_iff.mpr ⟨q, first, more ++ entriesLeft result, hfirst,
      ih hmore (hindex ▸ happly), List.append_assoc _ _ _⟩

/-- Among steps numbered from some place there is one that has no answer. -/
inductive Halts (fault : Fault) : Nat → Runner → List Step → Prop where
  | here {index : Nat} {r : Runner} {s : Step} {rest : List Step} (hbreaks : Breaks fault r s) :
      Halts fault index r (s :: rest)
  | later {index : Nat} {r q : Runner} {s : Step} {rest : List Step}
      {result : Except Unmet (List Entry)} (happly : r.apply index s = .ok (q, result))
      (hrest : Halts fault (index + 1) q rest) : Halts fault index r (s :: rest)

/-- Following steps has no answer just if one of them has none. -/
theorem follow_eq_error_iff {steps : List Step}
    (hsteps : ∀ chunk budget, .run chunk budget ∈ steps → 1 ≤ chunk) :
    r.follow index steps = .error fault ↔ Halts fault index r steps := by
  induction steps generalizing r index with
  | nil => exact iff_of_false nofun nofun
  | cons s rest ih =>
    have hs : ∀ chunk budget, s = .run chunk budget → 1 ≤ chunk := by
      rintro chunk budget rfl
      exact hsteps chunk budget List.mem_cons_self
    have hbreaks : r.apply index s = .error fault ↔ Breaks fault r s := apply_eq_error_iff index hs
    rw [follow]
    cases happly : r.apply index s with
    | error fault' =>
      rw [happly] at hbreaks
      constructor
      · intro h
        cases h
        exact .here (hbreaks.mp rfl)
      · intro h
        cases h with
        | here hs =>
          cases hbreaks.mpr hs
          rfl
        | later happly' => cases happly.symm.trans happly'
    | ok answer =>
      obtain ⟨q, result⟩ := answer
      rw [happly] at hbreaks
      have hrest : ∀ chunk budget, .run chunk budget ∈ rest → 1 ≤ chunk :=
        fun chunk budget hmem => hsteps chunk budget (List.mem_cons_of_mem _ hmem)
      dsimp only
      rw [map_eq_error_iff, ih hrest]
      constructor
      · exact .later happly
      · intro h
        cases h with
        | here hs => cases hbreaks.mpr hs
        | later happly' hrest =>
          rw [happly] at happly'
          cases happly'
          exact hrest

/-- The clock and the last event behind any steps are those of their last entries. -/
theorem accounts_of_follow {steps : List Step} (h : r.follow index steps = .ok (r', entries)) :
    r.Accounts entries r' := by
  induction steps generalizing r index entries with
  | nil =>
    cases h
    exact .refl _
  | cons s rest ih =>
    obtain ⟨q, result, more, happly, hmore, rfl⟩ := follow_cons_eq_ok_iff.mp h
    exact (accounts_of_apply happly).trans (ih hmore)

theorem applyAll_cons_eq_ok_iff {s : Step} {rest : List Step} :
    r.applyAll index (s :: rest) = .ok (r', .ok entries) ↔
      ∃ q first more, r.apply index s = .ok (q, .ok first) ∧
        q.applyAll (index + 1) rest = .ok (r', .ok more) ∧ entries = first ++ more := by
  constructor
  · intro h
    rw [applyAll] at h
    split at h
    · cases h
    · cases h
    · next q first hfirst =>
      split at h
      · cases h
      · cases h
      · next q' more hmore =>
        cases h
        exact ⟨q, first, more, hfirst, hmore, rfl⟩
  · rintro ⟨q, first, more, hfirst, hmore, rfl⟩
    simp only [applyAll, hfirst, hmore]

/-- As long as no expectation fails, going on behind failures makes no difference. -/
theorem follow_of_applyAll {steps : List Step}
    (h : r.applyAll index steps = .ok (r', .ok entries)) :
    r.follow index steps = .ok (r', entries) := by
  induction steps generalizing r index entries with
  | nil =>
    cases h
    rfl
  | cons s rest ih =>
    obtain ⟨q, first, more, hfirst, hmore, rfl⟩ := applyAll_cons_eq_ok_iff.mp h
    exact follow_cons_eq_ok_iff.mpr ⟨q, .ok first, more, hfirst, ih hmore, rfl⟩

theorem follow_of_applyAll_error {steps : List Step}
    (h : r.applyAll index steps = .error fault) : r.follow index steps = .error fault := by
  induction steps generalizing r index with
  | nil => cases h
  | cons s rest ih =>
    rw [applyAll] at h
    rw [follow]
    split at h
    · next happly =>
      cases h
      rw [happly]
    · cases h
    · next q entries happly =>
      split at h
      · next hrest =>
        cases h
        rw [happly]
        dsimp only
        rw [ih hrest, map_error]
      · cases h
      · cases h

end Runner

end Playhead

import Playhead.Proofs.Scenario.Answers
import Playhead.Proofs.Scenario.Replay

/-!
# The verdict of a replay

An expectation holds if every field that it sets has its value (`Expectation.Holds`). A replay goes
through just if every expectation holds of the runner that the steps before it lead to
(`Scenario.reached`); otherwise it names the first that does not, and its problems are the fields
that differ (`Scenario.replay_verdict`). To check an expectation changes nothing, so that those that
hold can be left out.
-/

namespace Playhead

/-! ## Expectations -/

/-- Every field that is set has its value. -/
structure Expectation.Holds (e : Expectation) (r : Runner) : Prop where
  lifecycle : ∀ expected, e.lifecycle = some expected → r.player.lifecycle = expected
  event : ∀ expected, e.event = some expected → r.lastEvent = some expected
  loading : ∀ expected, e.loading = some expected → r.player.loading = expected
  position : ∀ expected, e.position = some expected → r.player.position = expected
  plays : ∀ expected, e.plays = some expected → r.player.plays = expected
  clock : ∀ expected, e.clock = some expected → r.clock = expected

/-- A field that is set and differs, as a problem. -/
inductive Expectation.Misses (e : Expectation) (r : Runner) : Problem → Prop where
  | lifecycle {expected : Lifecycle} (hset : e.lifecycle = some expected)
      (hdiffers : r.player.lifecycle ≠ expected) :
      Misses e r (.lifecycle r.player.lifecycle expected)
  | event {expected : Event} (hset : e.event = some expected)
      (hdiffers : r.lastEvent ≠ some expected) : Misses e r (.event r.lastEvent expected)
  | loading {expected : Loading} (hset : e.loading = some expected)
      (hdiffers : r.player.loading ≠ expected) : Misses e r (.loading r.player.loading expected)
  | position {expected : Nat} (hset : e.position = some expected)
      (hdiffers : r.player.position ≠ expected) :
      Misses e r (.position r.player.position expected)
  | plays {expected : Nat} (hset : e.plays = some expected)
      (hdiffers : r.player.plays ≠ expected) : Misses e r (.plays r.player.plays expected)
  | clock {expected : Nat} (hset : e.clock = some expected) (hdiffers : r.clock ≠ expected) :
      Misses e r (.clock r.clock expected)

/-- The place of a problem among the six that an expectation can have. -/
def Problem.place : Problem → Nat
  | lifecycle _ _ => 0
  | event _ _ => 1
  | loading _ _ => 2
  | position _ _ => 3
  | plays _ _ => 4
  | clock _ _ => 5

/-- Problems in the order of their places, all of them below `bound`. -/
structure InOrderBelow (bound : Nat) (problems : List Problem) : Prop where
  pairwise : problems.Pairwise fun p q => p.place < q.place
  place_lt : ∀ p ∈ problems, p.place < bound

theorem InOrderBelow.mono {bound bound' : Nat} {problems : List Problem}
    (h : InOrderBelow bound problems) (hle : bound ≤ bound') : InOrderBelow bound' problems :=
  ⟨h.pairwise, fun p hp => Nat.lt_of_lt_of_le (h.place_lt p hp) hle⟩

/-- At most one problem, and it has the next place. -/
theorem InOrderBelow.append {bound : Nat} {problems more : List Problem}
    (h : InOrderBelow bound problems) (hmore : more = [] ∨ ∃ p, more = [p] ∧ p.place = bound) :
    InOrderBelow (bound + 1) (problems ++ more) := by
  rcases hmore with rfl | ⟨last, rfl, hplace⟩
  · rw [List.append_nil]
    exact h.mono (Nat.le_succ bound)
  · constructor
    · refine List.pairwise_append.mpr ⟨h.pairwise, List.pairwise_singleton _ _, ?_⟩
      intro p hp q hq
      rw [List.mem_singleton.mp hq, hplace]
      exact h.place_lt p hp
    · intro p hp
      rcases List.mem_append.mp hp with hp | hp
      · exact Nat.lt_succ_of_lt (h.place_lt p hp)
      · rw [List.mem_singleton.mp hp, hplace]
        exact Nat.lt_succ_self bound

namespace Runner

variable {r r' : Runner} {e : Expectation} {index : Nat} {s : Step} {steps pre post : List Step}
  {entries : List Entry}

section Differing

variable {α : Type} [DecidableEq α] {expected : Option α} {got : α} {problem : α → α → Problem}

theorem mem_differing_iff {p : Problem} : p ∈ problems.differing expected got problem ↔
    ∃ x, expected = some x ∧ got ≠ x ∧ p = problem got x := by
  unfold problems.differing
  cases expected with
  | none => simp
  | some x =>
    by_cases hsame : got = x
    · simp [hsame]
    · simp [hsame]

theorem differing_cases {place : Nat} (hplace : ∀ got x, (problem got x).place = place)
    (expected : Option α) (got : α) : problems.differing expected got problem = [] ∨
      ∃ p, problems.differing expected got problem = [p] ∧ p.place = place := by
  unfold problems.differing
  split
  · split
    · exact .inl rfl
    · exact .inr ⟨_, rfl, hplace _ _⟩
  · exact .inl rfl

end Differing

theorem mem_problems_iff {p : Problem} : p ∈ r.problems e ↔ e.Misses r p := by
  simp only [problems, List.mem_append, mem_differing_iff]
  constructor
  · rintro (((((⟨x, hset, hdiffers, rfl⟩ | hp) | ⟨x, hset, hdiffers, rfl⟩) |
      ⟨x, hset, hdiffers, rfl⟩) | ⟨x, hset, hdiffers, rfl⟩) | ⟨x, hset, hdiffers, rfl⟩)
    · exact .lifecycle hset hdiffers
    · split at hp
      · next x hset =>
        split at hp
        · cases hp
        · next hdiffers =>
          rw [List.mem_singleton.mp hp]
          exact .event hset hdiffers
      · cases hp
    · exact .loading hset hdiffers
    · exact .position hset hdiffers
    · exact .plays hset hdiffers
    · exact .clock hset hdiffers
  · intro h
    cases h with
    | lifecycle hset hdiffers => exact .inl (.inl (.inl (.inl (.inl ⟨_, hset, hdiffers, rfl⟩))))
    | event hset hdiffers =>
      refine .inl (.inl (.inl (.inl (.inr ?_))))
      rw [hset]
      simp [hdiffers]
    | loading hset hdiffers => exact .inl (.inl (.inl (.inr ⟨_, hset, hdiffers, rfl⟩)))
    | position hset hdiffers => exact .inl (.inl (.inr ⟨_, hset, hdiffers, rfl⟩))
    | plays hset hdiffers => exact .inl (.inr ⟨_, hset, hdiffers, rfl⟩)
    | clock hset hdiffers => exact .inr ⟨_, hset, hdiffers, rfl⟩

theorem holds_iff_forall_not_misses : e.Holds r ↔ ∀ p, ¬e.Misses r p := by
  constructor
  · intro h p hp
    cases hp with
    | lifecycle hset hdiffers => exact hdiffers (h.lifecycle _ hset)
    | event hset hdiffers => exact hdiffers (h.event _ hset)
    | loading hset hdiffers => exact hdiffers (h.loading _ hset)
    | position hset hdiffers => exact hdiffers (h.position _ hset)
    | plays hset hdiffers => exact hdiffers (h.plays _ hset)
    | clock hset hdiffers => exact hdiffers (h.clock _ hset)
  · intro h
    exact {
      lifecycle := fun _ hset => Decidable.byContradiction fun hne => h _ (.lifecycle hset hne)
      event := fun _ hset => Decidable.byContradiction fun hne => h _ (.event hset hne)
      loading := fun _ hset => Decidable.byContradiction fun hne => h _ (.loading hset hne)
      position := fun _ hset => Decidable.byContradiction fun hne => h _ (.position hset hne)
      plays := fun _ hset => Decidable.byContradiction fun hne => h _ (.plays hset hne)
      clock := fun _ hset => Decidable.byContradiction fun hne => h _ (.clock hset hne) }

theorem problems_eq_nil_iff : r.problems e = [] ↔ e.Holds r := by
  rw [holds_iff_forall_not_misses, List.eq_nil_iff_forall_not_mem]
  simp only [mem_problems_iff]

theorem inOrderBelow_problems (r : Runner) (e : Expectation) : InOrderBelow 6 (r.problems e) := by
  have hnone : InOrderBelow 0 [] := ⟨.nil, fun _ hp => nomatch hp⟩
  have hlifecycle : InOrderBelow 1
      (problems.differing e.lifecycle r.player.lifecycle .lifecycle) := by
    rw [← List.nil_append (problems.differing _ _ _)]
    exact hnone.append (differing_cases (fun _ _ => by rfl) _ _)
  refine ((((hlifecycle.append ?_).append (differing_cases ?_ _ _)).append
    (differing_cases ?_ _ _)).append (differing_cases ?_ _ _)).append (differing_cases ?_ _ _)
  · split
    · split
      · exact .inl rfl
      · exact .inr ⟨_, rfl, rfl⟩
    · exact .inl rfl
  all_goals exact fun _ _ => rfl

/-- To check an expectation changes nothing. One that holds leaves an entry. -/
theorem apply_expect_of_holds (hholds : e.Holds r) (index : Nat) :
    r.apply index (.expect e) = .ok (r, .ok [r.entry index "expect" .checked]) := by
  simp only [apply, problems_eq_nil_iff.mpr hholds]
  rfl

/-- One that fails leaves its problems. -/
theorem apply_expect_of_not_holds (hfails : ¬e.Holds r) (index : Nat) :
    r.apply index (.expect e) = .ok (r, .error ⟨index, r.problems e⟩) := by
  simp only [apply]
  split
  · next hnil => exact absurd (problems_eq_nil_iff.mp hnil) hfails
  · rfl

/-! ## Steps without their numbers -/

/-- What steps come to apart from entries: the runner afterwards, and whether they went through. -/
def gist (a : Runner × Except Unmet (List Entry)) : Runner × Bool := (a.1, a.2.isOk)

theorem advanceTimes_fst (step step' : Nat) (label label' : String) (budget times : Nat)
    (done done' : List Entry) :
    (advanceTimes step label budget times r done).map Prod.fst =
      (advanceTimes step' label' budget times r done').map Prod.fst := by
  induction times generalizing r done done' with
  | zero => rfl
  | succ times ih =>
    rw [advanceTimes, advanceTimes]
    cases r.advance budget with
    | error fault => rfl
    | ok answer => exact ih _ _

theorem runChunks_fst (step step' : Nat) (label label' : String) (chunk left waiting : Nat)
    (done done' : List Entry) :
    (runChunks step label chunk left waiting r done).map Prod.fst =
      (runChunks step' label' chunk left waiting r done').map Prod.fst := by
  induction left, waiting, r, done using runChunks.induct step label chunk generalizing done' with
  | case1 left waiting r done hstop =>
    rw [runChunks, if_pos hstop, runChunks, if_pos hstop]
    rfl
  | case2 left waiting r done hstop fault hfault =>
    rw [runChunks, if_neg hstop, hfault, runChunks, if_neg hstop, hfault]
  | case3 left r done hstop report s hadvance hstill =>
    rw [runChunks, if_neg hstop, runChunks, if_neg hstop]
    simp only [hadvance, hstill, if_true]
  | case4 left r done hstop report s hadvance done hstill waiting ih =>
    rw [runChunks, if_neg hstop]
    conv => rhs; rw [runChunks, if_neg hstop]
    simp only [hadvance, hstill, if_true]
    exact ih _
  | case5 left waiting r done hstop report s hadvance done hmoves ih =>
    rw [runChunks, if_neg hstop]
    conv => rhs; rw [runChunks, if_neg hstop]
    simp only [hadvance, if_neg hmoves]
    exact ih _

/-- The number of a step shows in its entries and in its failure only. -/
theorem gist_apply (r : Runner) (s : Step) (index index' : Nat) :
    (r.apply index s).map gist = (r.apply index' s).map gist := by
  have hfst {o o' : Except Fault (Runner × List Entry)} (h : o.map Prod.fst = o'.map Prod.fst) :
      (o.map fun a => (a.1, .ok a.2)).map gist = (o'.map fun a => (a.1, .ok a.2)).map gist := by
    have hmap := congrArg (Except.map fun q => (q, true)) h
    rwa [map_map, map_map] at hmap ⊢
  cases s with
  | command c => rfl
  | advance budget times => exact hfst (advanceTimes_fst _ _ _ _ _ _ _ _)
  | run chunk budget => exact hfst (runChunks_fst _ _ _ _ _ _ _ _ _)
  | expect e =>
    by_cases hholds : e.Holds r
    · rw [apply_expect_of_holds hholds, apply_expect_of_holds hholds]
      rfl
    · rw [apply_expect_of_not_holds hholds, apply_expect_of_not_holds hholds]
      rfl

theorem gist_expect_of_holds (hholds : e.Holds r) (index : Nat) :
    (r.apply index (.expect e)).map gist = .ok (r, true) := by
  rw [apply_expect_of_holds hholds]
  rfl

theorem gist_expect_of_not_holds (hfails : ¬e.Holds r) (index : Nat) :
    (r.apply index (.expect e)).map gist = .ok (r, false) := by
  rw [apply_expect_of_not_holds hfails]
  rfl

/-! ## Going through, and going on -/

/-- Whether steps go through, and no expectation among them fails. -/
def passes (r : Runner) (index : Nat) (steps : List Step) : Except Fault Bool :=
  (r.applyAll index steps).map (·.2.isOk)

/-- The runner that steps lead to, whether their expectations hold or not. -/
def reaches (r : Runner) (index : Nat) (steps : List Step) : Except Fault Runner :=
  (r.follow index steps).map Prod.fst

theorem passes_cons (r : Runner) (index : Nat) (s : Step) (rest : List Step) :
    r.passes index (s :: rest) = (r.apply index s).map gist >>= fun a =>
      if a.2 then a.1.passes (index + 1) rest else .ok false := by
  unfold passes
  rw [applyAll]
  cases r.apply index s with
  | error fault => rfl
  | ok answer =>
    obtain ⟨q, result⟩ := answer
    cases result with
    | error unmet => rfl
    | ok entries =>
      dsimp only [gist, Except.isOk, Except.toBool, map_ok, bind_ok]
      rw [if_pos rfl]
      cases q.applyAll (index + 1) rest with
      | error fault => rfl
      | ok answer =>
        obtain ⟨q', result'⟩ := answer
        cases result' <;> rfl

theorem reaches_cons (r : Runner) (index : Nat) (s : Step) (rest : List Step) :
    r.reaches index (s :: rest) =
      (r.apply index s).map gist >>= fun a => a.1.reaches (index + 1) rest := by
  unfold reaches
  rw [follow]
  cases r.apply index s with
  | error fault => rfl
  | ok answer =>
    dsimp only [gist, map_ok, bind_ok]
    rw [map_map]
    rfl

theorem passes_renumber (r : Runner) (index index' : Nat) (steps : List Step) :
    r.passes index steps = r.passes index' steps := by
  induction steps generalizing r index index' with
  | nil => rfl
  | cons s rest ih =>
    rw [passes_cons, passes_cons, gist_apply r s index index']
    simp only [fun q : Runner => ih q (index + 1) (index' + 1)]

theorem reaches_renumber (r : Runner) (index index' : Nat) (steps : List Step) :
    r.reaches index steps = r.reaches index' steps := by
  induction steps generalizing r index index' with
  | nil => rfl
  | cons s rest ih =>
    rw [reaches_cons, reaches_cons, gist_apply r s index index']
    simp only [fun q : Runner => ih q (index + 1) (index' + 1)]

/-- To check an expectation changes nothing that steps lead to. -/
theorem reaches_without_expect (r : Runner) (index : Nat) (pre post : List Step)
    (e : Expectation) :
    r.reaches index (pre ++ .expect e :: post) = r.reaches index (pre ++ post) := by
  induction pre generalizing r index with
  | nil =>
    rw [List.nil_append, List.nil_append, reaches_renumber r index (index + 1) post, reaches_cons]
    by_cases hholds : e.Holds r
    · rw [gist_expect_of_holds hholds, bind_ok]
    · rw [gist_expect_of_not_holds hholds, bind_ok]
  | cons s rest ih =>
    rw [List.cons_append, List.cons_append, reaches_cons, reaches_cons]
    simp only [ih]

/-- An expectation that holds does not decide whether steps go through. -/
theorem passes_without_expect {q : Runner} (hreach : r.reaches index pre = .ok q)
    (hholds : e.Holds q) :
    r.passes index (pre ++ .expect e :: post) = r.passes index (pre ++ post) := by
  induction pre generalizing r index with
  | nil =>
    cases hreach
    rw [List.nil_append, List.nil_append, passes_renumber r index (index + 1) post, passes_cons,
      gist_expect_of_holds hholds, bind_ok, if_pos rfl]
  | cons s rest ih =>
    rw [reaches_cons] at hreach
    rw [List.cons_append, List.cons_append, passes_cons, passes_cons]
    cases hgist : (r.apply index s).map gist with
    | error fault => rfl
    | ok a =>
      rw [hgist, bind_ok] at hreach
      rw [bind_ok, bind_ok, ih hreach]

theorem exists_passes_of_reaches {q : Runner} (hreach : r.reaches index steps = .ok q) :
    ∃ ok, r.passes index steps = .ok ok := by
  induction steps generalizing r index with
  | nil => exact ⟨true, rfl⟩
  | cons s rest ih =>
    rw [reaches_cons] at hreach
    rw [passes_cons]
    cases hgist : (r.apply index s).map gist with
    | error fault =>
      rw [hgist] at hreach
      cases hreach
    | ok a =>
      rw [hgist, bind_ok] at hreach
      rw [bind_ok]
      split
      · exact ih hreach
      · exact ⟨false, rfl⟩

theorem reaches_of_applyAll (happly : r.applyAll index steps = .ok (r', .ok entries)) :
    r.reaches index steps = .ok r' := by
  rw [reaches, follow_of_applyAll happly, map_ok]

/-- Steps that go through meet every expectation on their way. -/
theorem met_of_applyAll {k : Nat} (happly : r.applyAll index steps = .ok (r', .ok entries))
    (hexpect : steps[k]? = some (.expect e)) :
    ∃ q, r.reaches index (steps.take k) = .ok q ∧ e.Holds q := by
  induction steps generalizing r index entries k with
  | nil => cases hexpect
  | cons s rest ih =>
    obtain ⟨q, first, more, hfirst, hmore, -⟩ := applyAll_cons_eq_ok_iff.mp happly
    cases k with
    | zero =>
      cases hexpect
      cases applies_of_apply hfirst with
      | pass hholds => exact ⟨r, rfl, problems_eq_nil_iff.mp hholds⟩
    | succ k =>
      rw [List.take_succ_cons, reaches_cons, hfirst]
      exact ih hmore hexpect

end Runner

/-! ## Replays -/

namespace Scenario

variable {s : Scenario} {fresh : Runner}

/-- The runner that the first `k` steps lead to, whether their expectations hold or not. -/
def reached (s : Scenario) (k : Nat) : Option Runner :=
  match Runner.ofScenario s with
  | .ok fresh => (fresh.reaches 0 (s.steps.take k)).toOption
  | .error _ => none

/-- If the step at place `k` is an expectation, the steps before it lead to a runner of which it
holds. -/
def MetAt (s : Scenario) (k : Nat) : Prop :=
  ∀ e, s.steps[k]? = some (.expect e) → ∃ q, s.reached k = some q ∧ e.Holds q

theorem reached_eq (hfresh : Runner.ofScenario s = .ok fresh) (k : Nat) :
    s.reached k = (fresh.reaches 0 (s.steps.take k)).toOption := by
  unfold reached
  rw [hfresh]

theorem reached_eq_some_iff (hfresh : Runner.ofScenario s = .ok fresh) {k : Nat} {q : Runner} :
    s.reached k = some q ↔ fresh.reaches 0 (s.steps.take k) = .ok q := by
  rw [reached_eq hfresh]
  cases fresh.reaches 0 (s.steps.take k) <;> simp [Except.toOption]

theorem map_isOk_replay (hfresh : Runner.ofScenario s = .ok fresh) :
    s.replay.map Except.isOk = fresh.passes 0 s.steps := by
  unfold replay Runner.passes
  rw [hfresh]
  dsimp only
  cases fresh.applyAll 0 s.steps with
  | error fault => rfl
  | ok answer =>
    obtain ⟨q, result⟩ := answer
    cases result <;> rfl

theorem metAt_of_applyAll {r' : Runner} {entries : List Entry} {k n : Nat}
    (hfresh : Runner.ofScenario s = .ok fresh)
    (happly : fresh.applyAll 0 (s.steps.take n) = .ok (r', .ok entries)) (hk : k < n) :
    s.MetAt k := by
  intro e hexpect
  rw [← List.getElem?_take_of_lt hk] at hexpect
  obtain ⟨q, hreach, hholds⟩ := Runner.met_of_applyAll happly hexpect
  rw [List.take_take, Nat.min_eq_left (Nat.le_of_lt hk)] at hreach
  exact ⟨q, (reached_eq_some_iff hfresh).mpr hreach, hholds⟩

/-- A replay that fails does so at an expectation that does not hold, behind others that do. -/
theorem unmet_of_replay_error {failure : RunError} (hfresh : Runner.ofScenario s = .ok fresh)
    (hreplay : s.replay = .ok (.error failure)) :
    ∃ k e q, failure = .unmet ⟨k, q.problems e⟩ ∧ s.steps[k]? = some (.expect e) ∧
      s.reached k = some q ∧ ¬e.Holds q ∧ ∀ j < k, s.MetAt j := by
  obtain ⟨q, entries, unmet, rfl, hattempt⟩ := attempt_of_replay_error hfresh hreplay
  obtain ⟨k, e, hexpect, hfails, heq, happly⟩ := Runner.expect_of_attempt hattempt rfl
  rw [Nat.zero_add] at heq
  refine ⟨k, e, q, congrArg _ heq, hexpect, ?_, ?_, ?_⟩
  · exact (reached_eq_some_iff hfresh).mpr (Runner.reaches_of_applyAll happly)
  · exact fun hholds => hfails (Runner.problems_eq_nil_iff.mpr hholds)
  · exact fun j hj => metAt_of_applyAll hfresh happly hj

theorem isOk_replay_iff {result : Except RunError Transcript}
    (hfresh : Runner.ofScenario s = .ok fresh) (hreplay : s.replay = .ok result) :
    result.isOk = true ↔ ∀ k, s.MetAt k := by
  constructor
  · intro hok k
    cases result with
    | error failure => cases hok
    | ok t =>
      obtain ⟨q, hattempt⟩ := attempt_of_replay hfresh hreplay
      have happly := Runner.applyAll_of_attempt hattempt
      rw [← List.take_of_length_le (Nat.le_max_left s.steps.length (k + 1))] at happly
      exact metAt_of_applyAll hfresh happly (Nat.le_max_right _ _)
  · intro hmet
    cases result with
    | ok t => rfl
    | error failure =>
      obtain ⟨k, e, q, -, hexpect, hreached, hfails, -⟩ := unmet_of_replay_error hfresh hreplay
      obtain ⟨q', hreached', hholds⟩ := hmet k e hexpect
      rw [hreached, Option.some.injEq] at hreached'
      exact absurd (hreached' ▸ hholds) hfails

section Removal

variable {content : Content} {pre post : List Step} {e : Expectation} {q : Runner}

/-- Without one of its expectations a scenario reaches the same, one step earlier behind it. -/
theorem reached_without_expect (hcontent : s.content.resolve = .ok content)
    (hsteps : s.steps = pre ++ .expect e :: post) (k : Nat) :
    { s with steps := pre ++ post }.reached (pre.length + k) =
      s.reached (pre.length + 1 + k) := by
  have hfresh : Runner.ofScenario { s with steps := pre ++ post } =
      .ok { player := .ofTrack s.track content } := ofScenario_of_resolve hcontent
  have htake : s.steps.take (pre.length + 1 + k) = pre ++ .expect e :: post.take k := by
    rw [hsteps, Nat.add_assoc, Nat.add_comm 1 k, List.take_length_add_append,
      List.take_succ_cons]
  rw [reached_eq (ofScenario_of_resolve hcontent), reached_eq hfresh, htake,
    List.take_length_add_append]
  exact congrArg Except.toOption (Runner.reaches_without_expect _ _ _ _ _).symm

theorem reached_before_expect (hcontent : s.content.resolve = .ok content)
    (hsteps : s.steps = pre ++ .expect e :: post) {k : Nat} (hk : k ≤ pre.length) :
    { s with steps := pre ++ post }.reached k = s.reached k := by
  have hfresh : Runner.ofScenario { s with steps := pre ++ post } =
      .ok { player := .ofTrack s.track content } := ofScenario_of_resolve hcontent
  rw [reached_eq (ofScenario_of_resolve hcontent), reached_eq hfresh, hsteps,
    List.take_append_of_le_length hk, List.take_append_of_le_length hk]

/-- An expectation that holds can be left out. -/
theorem map_isOk_replay_without_expect (hcontent : s.content.resolve = .ok content)
    (hsteps : s.steps = pre ++ .expect e :: post) (hreached : s.reached pre.length = some q)
    (hholds : e.Holds q) :
    { s with steps := pre ++ post }.replay.map Except.isOk = s.replay.map Except.isOk := by
  have hfresh : Runner.ofScenario { s with steps := pre ++ post } =
      .ok { player := .ofTrack s.track content } := ofScenario_of_resolve hcontent
  rw [reached_eq_some_iff (ofScenario_of_resolve hcontent), hsteps, List.take_left] at hreached
  rw [map_isOk_replay (ofScenario_of_resolve hcontent), map_isOk_replay hfresh, hsteps]
  exact (Runner.passes_without_expect hreached hholds).symm

end Removal

/-- An expectation that sets the event does not hold before the first advance. -/
theorem not_holds_of_no_events {q : Runner} {e : Expectation} {event : Event} {k : Nat}
    {entries : List Entry} (hlast : fresh.lastEvent = none)
    (hfollow : fresh.follow 0 (s.steps.take k) = .ok (q, entries))
    (hevents : Transcript.events ⟨entries⟩ = []) (hset : e.event = some event) : ¬e.Holds q := by
  intro h
  have hnone : q.lastEvent = none := by
    rw [(Runner.accounts_of_follow hfollow).lastEvent_eq, eventAfter, hevents, hlast]
    rfl
  cases hnone.symm.trans (h.event event hset)

/-- The verdict of a replay whose content is valid. If all of its steps come to an end, so does the
replay. It goes through just if every expectation holds where the steps before it lead to; otherwise
it names the first that does not hold, with the fields that are set and differ, in their order. An
expectation that holds can be left out: neither the verdict nor anything that is reached changes.
Applying it changes nothing, whether it holds or not, and one that fails leaves no entry; and an
event does not count as reported before anything has advanced. -/
theorem replay_verdict {content : Content} (hcontent : s.content.resolve = .ok content) :
    (∀ last, s.reached s.steps.length = some last → ∃ result, s.replay = .ok result) ∧
    (∀ result, s.replay = .ok result → (result.isOk = true ↔ ∀ k, s.MetAt k)) ∧
    (∀ failure, s.replay = .ok (.error failure) → ∃ unmet e q, failure = .unmet unmet ∧
      s.steps[unmet.step]? = some (.expect e) ∧ s.reached unmet.step = some q ∧ ¬e.Holds q ∧
      (∀ k < unmet.step, s.MetAt k) ∧ (∀ p, p ∈ unmet.problems ↔ e.Misses q p) ∧
      unmet.problems.Pairwise fun p p' => p.place < p'.place) ∧
    (∀ pre e post q, s.steps = pre ++ .expect e :: post →
      (∀ k ≤ pre.length, { s with steps := pre ++ post }.reached k = s.reached k) ∧
      (∀ k, { s with steps := pre ++ post }.reached (pre.length + k) =
        s.reached (pre.length + 1 + k)) ∧
      (s.reached pre.length = some q → e.Holds q →
        { s with steps := pre ++ post }.replay.map Except.isOk = s.replay.map Except.isOk)) ∧
    (∀ (r : Runner) index e,
      (e.Holds r → r.apply index (.expect e) = .ok (r, .ok [r.entry index "expect" .checked])) ∧
      (¬e.Holds r → r.apply index (.expect e) = .ok (r, .error ⟨index, r.problems e⟩))) ∧
    ∃ fresh, Runner.ofScenario s = .ok fresh ∧
      ∀ k q entries (e : Expectation) event, fresh.follow 0 (s.steps.take k) = .ok (q, entries) →
        Transcript.events ⟨entries⟩ = [] → e.event = some event → ¬e.Holds q := by
  have hfresh := ofScenario_of_resolve hcontent
  refine ⟨?_, ?_, ?_, ?_, ?_, ?_⟩
  · intro last hlast
    rw [reached_eq_some_iff hfresh, List.take_length] at hlast
    obtain ⟨ok, hpasses⟩ := Runner.exists_passes_of_reaches hlast
    rw [← map_isOk_replay hfresh] at hpasses
    obtain ⟨result, hreplay, -⟩ := map_eq_ok_iff.mp hpasses
    exact ⟨result, hreplay⟩
  · exact fun result hreplay => isOk_replay_iff hfresh hreplay
  · intro failure hreplay
    obtain ⟨k, e, q, rfl, hexpect, hreached, hfails, hbefore⟩ :=
      unmet_of_replay_error hfresh hreplay
    exact ⟨_, e, q, rfl, hexpect, hreached, hfails, hbefore, fun p => Runner.mem_problems_iff,
      (Runner.inOrderBelow_problems q e).pairwise⟩
  · intro pre e post q hsteps
    exact ⟨fun k hk => reached_before_expect hcontent hsteps hk,
      reached_without_expect hcontent hsteps, map_isOk_replay_without_expect hcontent hsteps⟩
  · exact fun r index e => ⟨fun hholds => Runner.apply_expect_of_holds hholds index,
      fun hfails => Runner.apply_expect_of_not_holds hfails index⟩
  · exact ⟨_, hfresh, fun k q entries e event hfollow hevents hset =>
      not_holds_of_no_events rfl hfollow hevents hset⟩

/-- A track that is checked when it starts, and again when it has come less far than is expected. -/
def checkedTwice : Scenario :=
  { content := { length := 40 },
    steps := [.command .play, .expect { lifecycle := some .playing, clock := some 0 },
      .advance 5 2, .expect { event := some .trackDone, position := some 9, clock := some 9 },
      .command .pause] }

/-- The second check fails in all of its three fields, and does so without the first one, too. -/
theorem replay_verdict_of_second_check :
    checkedTwice.replay = .ok (.error (.unmet
      ⟨3, [.event (some .timeUpdate) .trackDone, .position 5 9, .clock 5 9]⟩)) ∧
    (∀ k < 3, checkedTwice.MetAt k) ∧ (¬∀ k, checkedTwice.MetAt k) ∧
    { checkedTwice with steps := checkedTwice.steps.take 1 ++ checkedTwice.steps.drop 2 }.replay.map
      Except.isOk = .ok false := by
  have hcontent : checkedTwice.content.resolve = .ok { length := .finite 40 } := by rfl
  have hreplay : checkedTwice.replay = .ok (.error (.unmet
      ⟨3, [.event (some .timeUpdate) .trackDone, .position 5 9, .clock 5 9]⟩)) := by cbv
  obtain ⟨-, hverdict, hfailure, hremove, -, -⟩ := replay_verdict hcontent
  obtain ⟨unmet, e, q, heq, -, -, -, hbefore, -⟩ := hfailure _ hreplay
  cases heq
  obtain ⟨q', hreached, hholds⟩ := hbefore 1 (by decide) _ rfl
  obtain ⟨-, -, hkind⟩ := hremove (checkedTwice.steps.take 1) _ _ q' rfl
  refine ⟨hreplay, hbefore, fun hmet => ?_, ?_⟩
  · exact Bool.false_ne_true ((hverdict _ hreplay).mpr hmet)
  · refine (hkind hreached hholds).trans ?_
    rw [hreplay]
    rfl

end Scenario

end Playhead

import Playhead.Proofs.Scenario.Replay
import Playhead.Proofs.Scenario.Soaking
import Playhead.Proofs.Scenario.Timekeeping
import Playhead.Proofs.Session.Log
import Playhead.Scenario.Reading

/-!
# What validation guarantees

Validation finds the first flaw of a scenario (`Scenario.FirstFlaw`), if there is one. Whoever uses
a scenario that passed relies on no more than that: its content can be made, and a run in chunks
makes progress with every chunk, so that only an advance without an answer keeps it from its end.
-/

namespace Playhead

/-! ## Flaws -/

/-- A run has chunks of some length, and an advance is made at least once. -/
structure Step.Sound (s : Step) : Prop where
  chunk_pos : ∀ chunk budget, s = .run chunk budget → 1 ≤ chunk
  times_pos : ∀ budget times, s = .advance budget times → 1 ≤ times

/-- The flaw that a scenario is turned down for, behind which there may be more. -/
inductive Scenario.FirstFlaw (s : Scenario) : Flaw → Prop where
  | contentLength (hlength : s.content.length < -1) :
      FirstFlaw s (.contentLength s.content.length)
  | contentFailAfter (hlength : -1 ≤ s.content.length) (hlimit : s.content.failAfter < -1) :
      FirstFlaw s (.contentFailAfter s.content.failAfter)
  | runChunk {index budget : Nat} (hlength : -1 ≤ s.content.length)
      (hlimit : -1 ≤ s.content.failAfter)
      (hbefore : ∀ i step, i < index → s.steps[i]? = some step → step.Sound)
      (hstep : s.steps[index]? = some (.run 0 budget)) : FirstFlaw s (.runChunk index)
  | advanceTimes {index budget : Nat} (hlength : -1 ≤ s.content.length)
      (hlimit : -1 ≤ s.content.failAfter)
      (hbefore : ∀ i step, i < index → s.steps[i]? = some step → step.Sound)
      (hstep : s.steps[index]? = some (.advance budget 0)) : FirstFlaw s (.advanceTimes index)

namespace Step

theorem flaw?_eq_none_iff {s : Step} {index : Nat} : s.flaw? index = none ↔ s.Sound := by
  constructor
  · intro h
    refine ⟨chunk_pos_of_flaw? h, ?_⟩
    rintro budget (_ | times) rfl
    · cases h
    · exact Nat.succ_pos times
  · intro h
    unfold flaw?
    split
    · exact absurd (h.chunk_pos 0 _ rfl) (by decide)
    · exact absurd (h.times_pos _ 0 rfl) (by decide)
    · rfl

/-- The first flaw of steps is that of the first step that has one. -/
theorem firstFlaw?_eq_some_iff {index : Nat} {steps : List Step} {flaw : Flaw} :
    firstFlaw? index steps = some flaw ↔
      ∃ k, ∃ step : Step, steps[k]? = some step ∧ step.flaw? (index + k) = some flaw ∧
        ∀ i, ∀ earlier : Step, i < k → steps[i]? = some earlier → earlier.Sound := by
  induction steps generalizing index with
  | nil => simp [firstFlaw?]
  | cons s rest ih =>
    rw [firstFlaw?, Option.or_eq_some_iff, ih, flaw?_eq_none_iff]
    constructor
    · rintro (hflaw | ⟨hsound, k, step, hstep, hflaw, hbefore⟩)
      · exact ⟨0, s, rfl, hflaw, fun i _ hi => absurd hi (Nat.not_lt_zero i)⟩
      · rw [Nat.add_right_comm] at hflaw
        refine ⟨k + 1, step, hstep, hflaw, ?_⟩
        rintro (_ | i) earlier hi hearlier
        · cases hearlier
          exact hsound
        · exact hbefore i earlier (Nat.lt_of_succ_lt_succ hi) hearlier
    · rintro ⟨_ | k, step, hstep, hflaw, hbefore⟩
      · cases hstep
        exact .inl hflaw
      · refine .inr ⟨hbefore 0 s (Nat.succ_pos k) rfl, k, step, hstep, ?_, ?_⟩
        · rw [Nat.add_right_comm]
          exact hflaw
        · intro i earlier hi hearlier
          exact hbefore (i + 1) earlier (Nat.succ_lt_succ hi) hearlier

theorem firstFlaw?_eq_none_iff {index : Nat} {steps : List Step} :
    firstFlaw? index steps = none ↔ ∀ step ∈ steps, step.Sound := by
  induction steps generalizing index with
  | nil => simp [firstFlaw?]
  | cons s rest ih =>
    rw [firstFlaw?, Option.or_eq_none_iff, ih, flaw?_eq_none_iff, List.forall_mem_cons]

end Step

namespace ContentSpec

theorem limit_of_lt {given : Int} (flaw : Int → Flaw) (h : given < -1) :
    limit flaw given = .error (flaw given) := by
  rw [limit, if_neg (by omega), if_neg (by omega)]

theorem exists_limit {given : Int} (flaw : Int → Flaw) (h : -1 ≤ given) :
    ∃ result, limit flaw given = .ok result := by
  rw [limit]
  split
  · exact ⟨_, rfl⟩
  · rw [if_pos (by omega)]
    exact ⟨_, rfl⟩

theorem resolve_of_length_lt {spec : ContentSpec} (hlength : spec.length < -1) :
    spec.resolve = .error (.contentLength spec.length) := by
  rw [resolve, limit_of_lt .contentLength hlength]
  rfl

theorem resolve_of_failAfter_lt {spec : ContentSpec} (hlength : -1 ≤ spec.length)
    (hlimit : spec.failAfter < -1) :
    spec.resolve = .error (.contentFailAfter spec.failAfter) := by
  obtain ⟨length, hok⟩ := exists_limit .contentLength hlength
  rw [resolve, hok, limit_of_lt .contentFailAfter hlimit]
  rfl

theorem exists_resolve {spec : ContentSpec} (hlength : -1 ≤ spec.length)
    (hlimit : -1 ≤ spec.failAfter) : ∃ content, spec.resolve = .ok content := by
  obtain ⟨length, hok⟩ := exists_limit .contentLength hlength
  obtain ⟨failAfter, hok'⟩ := exists_limit .contentFailAfter hlimit
  rw [resolve, hok, hok']
  exact ⟨_, rfl⟩

end ContentSpec

namespace Scenario

variable {s : Scenario} {flaw : Flaw}

theorem validate_of_resolve_error (h : s.content.resolve = .error flaw) :
    s.validate = .error flaw := by
  rw [validate, h]
  rfl

theorem validate_of_resolve_ok {content : Content} (h : s.content.resolve = .ok content) :
    s.validate = (Step.firstFlaw? 0 s.steps).elim (.ok ()) .error := by
  rw [validate, h]
  cases Step.firstFlaw? 0 s.steps <;> rfl

/-- A scenario is turned down for its first flaw. -/
theorem FirstFlaw.validate_eq (h : s.FirstFlaw flaw) : s.validate = .error flaw := by
  cases h with
  | contentLength hlength =>
    exact validate_of_resolve_error (ContentSpec.resolve_of_length_lt hlength)
  | contentFailAfter hlength hlimit =>
    exact validate_of_resolve_error (ContentSpec.resolve_of_failAfter_lt hlength hlimit)
  | @runChunk index budget hlength hlimit hbefore hstep =>
    obtain ⟨content, hresolve⟩ := ContentSpec.exists_resolve hlength hlimit
    have hfirst : Step.firstFlaw? 0 s.steps = some (.runChunk index) :=
      Step.firstFlaw?_eq_some_iff.mpr ⟨index, _, hstep, by rw [Nat.zero_add]; rfl, hbefore⟩
    rw [validate_of_resolve_ok hresolve, hfirst]
    rfl
  | @advanceTimes index budget hlength hlimit hbefore hstep =>
    obtain ⟨content, hresolve⟩ := ContentSpec.exists_resolve hlength hlimit
    have hfirst : Step.firstFlaw? 0 s.steps = some (.advanceTimes index) :=
      Step.firstFlaw?_eq_some_iff.mpr ⟨index, _, hstep, by rw [Nat.zero_add]; rfl, hbefore⟩
    rw [validate_of_resolve_ok hresolve, hfirst]
    rfl

/-- Validation either passes a scenario with nothing wrong in it, or names its first flaw. -/
theorem validate_cases (s : Scenario) :
    (s.validate = .ok () ∧ -1 ≤ s.content.length ∧ -1 ≤ s.content.failAfter ∧
      ∀ step ∈ s.steps, step.Sound) ∨
    ∃ flaw, s.validate = .error flaw ∧ s.FirstFlaw flaw := by
  by_cases hlength : -1 ≤ s.content.length
  · by_cases hlimit : -1 ≤ s.content.failAfter
    · obtain ⟨content, hresolve⟩ := ContentSpec.exists_resolve hlength hlimit
      have hvalidate := validate_of_resolve_ok hresolve
      cases hfirst : Step.firstFlaw? 0 s.steps with
      | none =>
        rw [hfirst] at hvalidate
        exact .inl ⟨hvalidate, hlength, hlimit, Step.firstFlaw?_eq_none_iff.mp hfirst⟩
      | some flaw =>
        rw [hfirst] at hvalidate
        refine .inr ⟨flaw, hvalidate, ?_⟩
        obtain ⟨k, step, hstep, hflaw, hbefore⟩ := Step.firstFlaw?_eq_some_iff.mp hfirst
        rw [Nat.zero_add] at hflaw
        unfold Step.flaw? at hflaw
        split at hflaw
        · cases hflaw
          exact .runChunk hlength hlimit hbefore hstep
        · cases hflaw
          exact .advanceTimes hlength hlimit hbefore hstep
        · cases hflaw
    · have hflaw : s.FirstFlaw _ := .contentFailAfter hlength (Int.not_le.mp hlimit)
      exact .inr ⟨_, hflaw.validate_eq, hflaw⟩
  · have hflaw : s.FirstFlaw _ := .contentLength (Int.not_le.mp hlength)
    exact .inr ⟨_, hflaw.validate_eq, hflaw⟩

theorem validate_eq_ok_iff : s.validate = .ok () ↔
    -1 ≤ s.content.length ∧ -1 ≤ s.content.failAfter ∧ ∀ step ∈ s.steps, step.Sound := by
  constructor
  · intro hok
    rcases s.validate_cases with ⟨-, hsound⟩ | ⟨flaw, herror, -⟩
    · exact hsound
    · rw [hok] at herror
      cases herror
  · rintro ⟨hlength, hlimit, hsteps⟩
    obtain ⟨content, hresolve⟩ := ContentSpec.exists_resolve hlength hlimit
    rw [validate_of_resolve_ok hresolve, Step.firstFlaw?_eq_none_iff.mpr hsteps]
    rfl

theorem validate_eq_error_iff : s.validate = .error flaw ↔ s.FirstFlaw flaw := by
  refine ⟨?_, FirstFlaw.validate_eq⟩
  intro herror
  rcases s.validate_cases with ⟨hok, -⟩ | ⟨flaw', herror', hflaw⟩
  · rw [hok] at herror
    cases herror
  · rw [herror'] at herror
    cases herror
    exact hflaw

end Scenario

/-! ## Runs in chunks -/

namespace Runner

variable {r s : Runner} {a : Nat} {report : Report}

/-- An advance of a track that goes on takes time, or reports readiness, which is news, or ends the
track. -/
theorem progress_of_advance (hadvance : r.advance a = .ok (report, s)) (hpos : a ≠ 0)
    (hactive : r.player.isEnded = false) :
    0 < report.elapsed ∨
      (report.event = .trackReady ∧ r.player.announced = false ∧ s.player.announced = true) ∨
      s.player.isEnded = true := by
  obtain ⟨q, hq, -, rfl⟩ := advance_eq_ok_iff.mp hadvance
  by_cases hboundary : report.event.isBoundary = true
  · rcases Player.boundary_advance hq hboundary with hended | ⟨hfresh, hready⟩
    · exact .inr (.inr hended)
    · refine .inr (.inl ⟨?_, hfresh, hready⟩)
      by_contra hevent
      have hkept := Player.announced_of_act (Player.act_advance_eq_some_iff.mpr ⟨report, hq, rfl⟩)
      rw [if_neg (by simpa [Reply.event?] using hevent), hfresh, hready] at hkept
      cases hkept
  · obtain ⟨hspent, -⟩ := Player.routine_advance hq hactive (by simpa using hboundary)
    exact .inl (by omega)

theorem announced_of_advance (hadvance : r.advance a = .ok (report, s))
    (hready : r.player.announced = true) : s.player.announced = true := by
  obtain ⟨q, hq, -, rfl⟩ := advance_eq_ok_iff.mp hadvance
  exact Player.announced_advance hq hready

end Runner

/-! ## Scenarios that passed -/

namespace Scenario

variable {s : Scenario}

variable {read? : String → Option Scenario} {text : String}

theorem parseWith_eq_ok_iff :
    parseWith read? text = .ok s ↔ read? text = some s ∧ s.validate = .ok () := by
  rw [parseWith]
  cases read? text with
  | none => simp
  | some s' =>
    dsimp only
    cases hvalid : s'.validate with
    | error flaw =>
      constructor
      · intro h
        cases h
      · rintro ⟨h, hs⟩
        cases h
        rw [hvalid] at hs
        cases hs
    | ok u =>
      constructor
      · intro h
        cases h
        exact ⟨rfl, hvalid⟩
      · rintro ⟨h, -⟩
        cases h
        rfl

/-- What validation accepts and what it turns down, and what nobody has to check again.

A scenario passes just if its content can be made, its runs have chunks of some length and its
advances are made at least once; otherwise it is turned down for the first flaw. A scenario that was
read, in whatever way, has a runner and a session, a soak never calls it flawed, and its replay can
only fail by an expectation. Its runs in chunks end unless an advance has no answer: with every
chunk time passes, or the track becomes ready, which it stays, or it ends. -/
theorem validate_guards (s : Scenario) :
    (s.validate = .ok () ↔ -1 ≤ s.content.length ∧ -1 ≤ s.content.failAfter ∧
      (∀ chunk budget, .run chunk budget ∈ s.steps → 1 ≤ chunk) ∧
      ∀ budget times, .advance budget times ∈ s.steps → 1 ≤ times) ∧
    (∀ flaw, s.validate = .error flaw ↔ s.FirstFlaw flaw) ∧
    ∀ read? text, Scenario.parseWith read? text = .ok s →
      (∃ r, Runner.ofScenario s = .ok r) ∧
      (∀ ui, ∃ session, Session.new s ui = .ok session) ∧
      (∀ (σ : Type) (next : σ → UInt32 × σ) operations source flaw,
        Soak.run next s operations source ≠ .ok (.error (.flawed flaw))) ∧
      (∀ result, s.replay = .ok result →
        (∃ transcript, result = .ok transcript) ∨ ∃ unmet, result = .error (.unmet unmet)) ∧
      ∀ chunk budget, .run chunk budget ∈ s.steps → ∀ r : Runner,
        (∀ index fault, r.apply index (.run chunk budget) = .error fault ↔
          Runner.Stuck fault chunk budget r) ∧
        ∀ left report r', left ≠ 0 → r.player.isEnded = false →
          r.advance (min chunk left) = .ok (report, r') →
            (0 < report.elapsed ∨
              (report.event = .trackReady ∧ r.player.announced = false ∧
                r'.player.announced = true) ∨
              r'.player.isEnded = true) ∧
            (r.player.announced = true → r'.player.announced = true) := by
  refine ⟨?_, fun flaw => validate_eq_error_iff, ?_⟩
  · rw [validate_eq_ok_iff]
    refine and_congr_right fun _ => and_congr_right fun _ => ?_
    constructor
    · intro hsound
      exact ⟨fun chunk budget hmem => (hsound _ hmem).chunk_pos chunk budget rfl,
        fun budget times hmem => (hsound _ hmem).times_pos budget times rfl⟩
    · rintro ⟨hchunks, htimes⟩ step hmem
      refine ⟨?_, ?_⟩
      · rintro chunk budget rfl
        exact hchunks chunk budget hmem
      · rintro budget times rfl
        exact htimes budget times hmem
  · intro read? text hparse
    obtain ⟨-, hvalid⟩ := parseWith_eq_ok_iff.mp hparse
    obtain ⟨hlength, hlimit, hsound⟩ := validate_eq_ok_iff.mp hvalid
    obtain ⟨content, hcontent⟩ := ContentSpec.exists_resolve hlength hlimit
    have hfresh := ofScenario_of_resolve hcontent
    refine ⟨⟨_, hfresh⟩, fun ui => ⟨_, Session.new_eq hfresh ui⟩, ?_, ?_, ?_⟩
    · intro σ next operations source flaw hsoak
      exact Soak.run_ne_error hcontent operations source _ hsoak
    · intro result hreplay
      cases result with
      | ok transcript => exact .inl ⟨transcript, rfl⟩
      | error failure =>
        obtain ⟨q, entries, unmet, rfl, -⟩ := attempt_of_replay_error hfresh hreplay
        exact .inr ⟨unmet, rfl⟩
    · intro chunk budget hmem r
      have hchunk := (hsound _ hmem).chunk_pos chunk budget rfl
      refine ⟨fun index fault => Runner.apply_run_eq_error_iff index hchunk, ?_⟩
      intro left report r' hleft hactive hadvance
      exact ⟨Runner.progress_of_advance hadvance (by omega) hactive,
        Runner.announced_of_advance hadvance⟩

/-- A scenario as it is written, with a run in chunks as its last step. -/
def chunkedText : String := "steps=[['play'],['advance',1,2],['run',5,12]]\n[content]\nlength=8"

/-- The text is read, so that its run in chunks ends unless an advance has no answer. -/
theorem validate_guards_of_chunkedText :
    ∃ s, Scenario.parse chunkedText = .ok s ∧ (∃ r, Runner.ofScenario s = .ok r) ∧
      .run 5 12 ∈ s.steps ∧
      ∀ (r : Runner) fault, r.apply 2 (.run 5 12) = .error fault ↔
        Runner.Stuck fault 5 12 r := by
  have hread : (Scenario.parse chunkedText).toOption = some
      { content := { length := 8 }, steps := [.command .play, .advance 1 2, .run 5 12] } := by
    decide +kernel
  cases hparse : Scenario.parse chunkedText with
  | error flaw =>
    rw [hparse] at hread
    cases hread
  | ok s =>
    rw [hparse] at hread
    cases hread
    have hmem : Step.run 5 12 ∈ [Step.command .play, .advance 1 2, .run 5 12] := by simp
    obtain ⟨hrunner, -, -, -, hruns⟩ := (validate_guards _).2.2 _ _ hparse
    exact ⟨_, rfl, hrunner, hmem, fun r => (hruns 5 12 hmem r).1 2⟩

end Scenario

end Playhead

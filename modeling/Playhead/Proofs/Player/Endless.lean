import Playhead.Proofs.Player.Window

/-!
# Walks that go on

A walk takes turns until one of them stops it. `Player.walkWithin` takes a bounded number of turns
and never asks where they lead. The walk answers just what they come to (`walk_eq_some_iff`), and
where it has no answer no number of turns is enough (`walk_eq_none_iff`). This happens to one kind
of track only, `Params.Stalls`: it is played for ever, the time line has a single instant left for
its window, and it does not reach its failure limit. Any other track lets every advance answer.

An endless track over a window that fits is left to the counter for most of its passes.
`Player.playPlain` walks them all, to the same end (`playFor_eq_playPlain`).
-/

namespace Playhead

namespace Player

variable {p q : Player} {folding : Bool} {left spent cost turns : Nat} {report : Report}
  {result : Report × Player}

/-! ## Turn by turn -/

/-- Walk for at most a number of turns. -/
def walkWithin (folding : Bool) : Nat → Player → Nat → Nat → Option (Report × Player)
  | 0, _, _, _ => none
  | turns + 1, p, left, spent =>
    match p.turn folding left with
    | .stop report q => some ({ report with elapsed := spent + report.elapsed }, q)
    | .lap cost q => walkWithin folding turns q (left - cost) (spent + cost)

theorem walkWithin_of_stop (h : p.turn folding left = .stop report q) (turns : Nat) :
    walkWithin folding (turns + 1) p left spent =
      some ({ report with elapsed := spent + report.elapsed }, q) := by
  simp only [walkWithin, h]

theorem walkWithin_of_lap (h : p.turn folding left = .lap cost q) (turns : Nat) :
    walkWithin folding (turns + 1) p left spent =
      walkWithin folding turns q (left - cost) (spent + cost) := by
  simp only [walkWithin, h]

theorem exists_walkWithin_of_walk (h : p.walk folding left spent = some result) :
    ∃ turns, walkWithin folding turns p left spent = some result := by
  induction p, left, spent using walk.induct folding with
  | case1 p left spent report q hturn =>
    rw [walk_of_stop hturn] at h
    exact ⟨1, (walkWithin_of_stop hturn 0).trans h⟩
  | case2 p left spent cost q hturn hrest =>
    rw [walk_of_rest hturn hrest] at h
    cases h
  | case3 p left spent cost q hturn hmoves ih =>
    rw [walk_of_lap hturn hmoves] at h
    obtain ⟨turns, hturns⟩ := ih h
    exact ⟨turns + 1, (walkWithin_of_lap hturn turns).trans hturns⟩

theorem eq_of_rest (h : p.turn folding left = .lap cost q) (hposition : q.position = p.position)
    (hplays : q.plays = p.plays) : q = p := by
  cases turn_eq_iff.mp h with
  | lap hfail hlast hreach hmore hlaps =>
    simp only at hposition hplays
    rw [hposition, hplays]

theorem walk_of_walkWithin (h : walkWithin folding turns p left spent = some result) :
    p.walk folding left spent = some result := by
  induction turns generalizing p left spent with
  | zero => cases h
  | succ turns ih =>
    cases hturn : p.turn folding left with
    | stop report q => rwa [walkWithin_of_stop hturn, ← walk_of_stop hturn] at h
    | lap cost q =>
      rw [walkWithin_of_lap hturn] at h
      by_cases hrest : cost = 0 ∧ q.position = p.position ∧ q.plays = p.plays
      · -- The turns behind a rest are those in front of it, and they come to nothing.
        obtain rfl := eq_of_rest hturn hrest.2.1 hrest.2.2
        obtain rfl := hrest.1
        have hsome := ih h
        rw [Nat.sub_zero, Nat.add_zero, walk_of_rest hturn hrest] at hsome
        cases hsome
      · rw [walk_of_lap hturn hrest]
        exact ih h

/-- The walk answers what its turns come to. -/
theorem walk_eq_some_iff :
    p.walk folding left spent = some result ↔
      ∃ turns, walkWithin folding turns p left spent = some result :=
  ⟨exists_walkWithin_of_walk, fun ⟨_, h⟩ => walk_of_walkWithin h⟩

/-- Without an answer the turns go on for ever. -/
theorem walk_eq_none_iff :
    p.walk folding left spent = none ↔
      ∀ turns, walkWithin folding turns p left spent = none := by
  rw [Option.eq_none_iff_forall_ne_some]
  simp only [ne_eq, walk_eq_some_iff, not_exists]
  constructor
  · intro h turns
    exact Option.eq_none_iff_forall_ne_some.mpr fun result => h result turns
  · intro h result turns hsome
    rw [h turns] at hsome
    cases hsome

end Player

/-! ## Tracks on which time stalls -/

/-- The track is played for ever over the last instant of the time line, where its window is cut
off, and its failure limit, if it has one, lies behind all the passes that the counter holds. -/
structure Params.Stalls (p : Params) : Prop where
  repeats_eq : p.repeats = .forever
  cutOff : ∃ length, p.extent = .finite length ∧ 0 < length.val ∧ p.start.val = lastMillis
  limit_lt : ∀ limit, p.failAfter = some limit → maxPlays * p.window < limit.val

theorem Params.Stalls.last?_eq {p : Params} (h : p.Stalls) : p.last? = some p.start.val := by
  obtain ⟨length, hext, -, hstart⟩ := h.cutOff
  simp only [last?, hext, hstart, capMillis, Option.some.injEq]
  omega

theorem Params.Stalls.isEmpty_eq {p : Params} (h : p.Stalls) : p.extent.isEmpty = false := by
  obtain ⟨length, hext, hpos, -⟩ := h.cutOff
  rw [hext]
  simp only [Extent.isEmpty, beq_eq_false_iff_ne]
  omega

theorem Params.Fits.not_stalls {p : Params} (h : p.Fits) : ¬p.Stalls := by
  rintro ⟨-, ⟨length, hext, hpos, hstart⟩, -⟩
  have hend := h length hext
  omega

theorem Repeat.eq_forever_of_allowsAnother {r : Repeat} (h : r.allowsAnother maxPlays = true) :
    r = .forever := by
  cases r with
  | forever => rfl
  | times passes =>
    have hlt := Nat.le_sub_one_of_lt passes.isLt
    have hmore : maxPlays < passes.val := of_decide_eq_true h
    exact absurd hmore (Nat.not_lt.mpr hlt)

namespace Player

variable {p q : Player} {folding : Bool} {left spent cost : Nat} {report : Report}

theorem heard_of_start (h : p.position = p.params.start.val) :
    p.heard = p.plays * p.params.window := by
  rw [heard, h, Nat.sub_self, Nat.add_zero]

theorem stalls_of_rest (hwindow : p.params.extent.isEmpty = false)
    (hturn : p.turn folding left = .lap cost q)
    (hrest : cost = 0 ∧ q.position = p.position ∧ q.plays = p.plays) : p.params.Stalls := by
  obtain ⟨hcost, hposition, hplays⟩ := hrest
  cases turn_eq_iff.mp hturn with
  | @lap last laps hfail hlast hreach hmore hlaps =>
    obtain ⟨length, hext⟩ := Params.exists_finite_of_last? hlast
    have hpos := Params.length_pos hext hwindow
    simp only at hposition hplays
    -- The pass is in the counter, so the counter must have stopped.
    have hfull : p.plays = maxPlays := by
      simp only [capPlays] at hplays
      generalize maxPlays = most at hplays ⊢
      omega
    have hcounted : capPlays (p.plays + 1) = maxPlays := by
      rw [hfull, capPlays]
      exact Nat.min_eq_right (Nat.le_succ _)
    have hstart : p.params.start.val = lastMillis := by
      have hle := p.params.start.val_le
      simp only [Params.last?, hext, capMillis, Option.some.injEq] at hlast
      omega
    refine ⟨Repeat.eq_forever_of_allowsAnother (hcounted ▸ hmore), ⟨length, hext, hpos, hstart⟩, ?_⟩
    intro limit hlimit
    have hbefore := heard_lt_of_reach hfail hlast hreach limit hlimit
    rw [heard_of_start hposition.symm, hfull] at hbefore
    omega

theorem stalls_of_walk (hwindow : p.params.extent.isEmpty = false)
    (h : p.walk folding left spent = none) : p.params.Stalls := by
  induction p, left, spent using walk.induct folding with
  | case1 p left spent report q hturn =>
    rw [walk_of_stop hturn] at h
    cases h
  | case2 p left spent cost q hturn hrest => exact stalls_of_rest hwindow hturn hrest
  | case3 p left spent cost q hturn hmoves ih =>
    rw [walk_of_lap hturn hmoves] at h
    obtain ⟨-, -, hparams, -⟩ := lap_of_turn hturn
    exact hparams ▸ ih (hparams ▸ hwindow) h

theorem turn_ne_stop_of_stalls (h : p.params.Stalls) (hposition : p.position = p.params.start.val)
    (hplays : p.plays ≤ maxPlays) : p.turn folding left ≠ .stop report q := by
  intro hturn
  have hlast := h.last?_eq
  cases turn_eq_iff.mp hturn with
  | fail hfail =>
    -- The play head never leaves the start, so only the counter brings it closer to the limit.
    obtain ⟨limit, hlimit, hahead, -, hroom⟩ := failure?_eq_some_iff.mp hfail
    have hroom := hroom _ hlast
    have hbehind := h.limit_lt limit hlimit
    have hcounted := Nat.mul_le_mul_right p.params.window hplays
    rw [limit_sub_played, heard_of_start hposition] at hahead
    omega
  | done hfail hlast' hreach hover => simp [h.repeats_eq, Repeat.allowsAnother] at hover
  | drift hfail hroom =>
    -- The end of the window is where the play head is, so it is within any budget.
    have hroom := hroom _ hlast
    omega

theorem walk_of_stalls (h : p.params.Stalls) (hposition : p.position = p.params.start.val)
    (hplays : p.plays ≤ maxPlays) : p.walk folding left spent = none := by
  induction p, left, spent using walk.induct folding with
  | case1 p left spent report q hturn =>
    exact absurd hturn (turn_ne_stop_of_stalls h hposition hplays)
  | case2 p left spent cost q hturn hrest => exact walk_of_rest hturn hrest
  | case3 p left spent cost q hturn hmoves ih =>
    rw [walk_of_lap hturn hmoves]
    obtain ⟨-, hposition', hparams, laps, hplays'⟩ := lap_of_turn hturn
    exact ih (hparams ▸ h) (hparams ▸ hposition') (hplays' ▸ capPlays_le _)

theorem Coherent.walk_eq_none_iff (h : p.Coherent) (hwindow : p.params.extent.isEmpty = false) :
    p.walk folding left spent = none ↔ p.params.Stalls := by
  refine ⟨stalls_of_walk hwindow, fun hstalls => ?_⟩
  have hend := h.position_le_last _ hstalls.last?_eq
  exact walk_of_stalls hstalls (Nat.le_antisymm hend h.start_le_position) h.plays_le_maxPlays

theorem Coherent.exists_walkWithin_iff (h : p.Coherent)
    (hwindow : p.params.extent.isEmpty = false) :
    (∃ turns result, walkWithin folding turns p left spent = some result) ↔
      ¬p.params.Stalls := by
  have hnone : p.walk folding left spent = none ↔ p.params.Stalls := h.walk_eq_none_iff hwindow
  rw [← hnone, ← ne_eq, Option.ne_none_iff_exists', exists_comm]
  simp only [walk_eq_some_iff]

/-- An advance lacks an answer only while such a track plays, and then always. -/
theorem Coherent.advance_eq_none_iff (h : p.Coherent) (budget : Nat) :
    p.advance budget = none ↔
      p.lifecycle = .playing ∧ p.announced = true ∧ p.params.Stalls := by
  constructor
  · intro hnone
    cases advance_eq_iff.mp hnone with
    | walk hplaying hdue hready hwindow hwalk =>
      exact ⟨hplaying, hready, (h.walk_eq_none_iff hwindow).mp hwalk⟩
  · rintro ⟨hplaying, hready, hstalls⟩
    have hbuffered := h.buffering_of_announced hready
    have hwindow := hstalls.isEmpty_eq
    exact advance_eq_iff.mpr (.walk hplaying (by omega) hready hwindow
      ((h.walk_eq_none_iff hwindow).mpr hstalls))

/-- A coherent player whose track never stalls answers whatever is done to it. -/
structure Responsive (p : Player) : Prop where
  coherent : p.Coherent
  not_stalls : ¬p.params.Stalls

theorem responsive_new {params : Params} (h : ¬params.Stalls) : (new params).Responsive := by
  refine ⟨coherent_new params, fun hnew => h { hnew with repeats_eq := ?_ }⟩
  have hforever := hnew.repeats_eq
  simp only [new, Repeat.atLeastOnce, Repeat.once] at hforever
  grind

theorem Responsive.act (h : p.Responsive) {a : Action} {reply : Reply}
    (hact : p.act a = some (reply, q)) : q.Responsive :=
  ⟨h.coherent.act hact, act_params hact ▸ h.not_stalls⟩

theorem Responsive.exists_advance (h : p.Responsive) (budget : Nat) :
    ∃ report q, p.advance budget = some (report, q) ∧ q.Responsive := by
  cases hadvance : p.advance budget with
  | none => exact absurd ((h.coherent.advance_eq_none_iff budget).mp hadvance).2.2 h.not_stalls
  | some result =>
    exact ⟨result.1, result.2, rfl, h.act (act_advance_eq_some_iff.mpr ⟨_, hadvance, rfl⟩)⟩

theorem Responsive.exists_act (h : p.Responsive) (a : Action) :
    ∃ reply q, p.act a = some (reply, q) ∧ q.Responsive := by
  cases a with
  | command c => exact ⟨_, _, p.act_command c, h.act (p.act_command c)⟩
  | advance budget =>
    obtain ⟨report, q, hadvance, hq⟩ := h.exists_advance budget
    exact ⟨_, _, act_advance_eq_some_iff.mpr ⟨report, hadvance, rfl⟩, hq⟩

theorem Responsive.exists_run (h : p.Responsive) (actions : List Action) :
    ∃ replies q, p.run actions = some (replies, q) := by
  induction actions generalizing p with
  | nil => exact ⟨_, _, rfl⟩
  | cons a rest ih =>
    obtain ⟨reply, q, ha, hq⟩ := h.exists_act a
    obtain ⟨more, r, hrest⟩ := ih hq
    exact ⟨_, _, run_cons_eq_some_iff.mpr ⟨reply, q, more, ha, hrest, rfl⟩⟩

/-! ## Endless tracks -/

/-- Let a playing track run for at most `budget`, with every pass walked on its own. -/
def playPlain (p : Player) (budget : Nat) : Option (Report × Player) :=
  if p.params.extent.isEmpty then
    some (⟨.trackDone, 0⟩, { p with position := p.params.start.val, lifecycle := .done })
  else p.walk false budget 0

/-- Passes that are counted at once are counted as if they were walked. An endless track over a
window that fits uses up any budget; its play head goes round the window, and the counter takes up
each completed pass until it stops at its largest value. -/
theorem playFor_eq_playPlain {length : Millis} (hrepeats : p.params.repeats = .forever)
    (hlimit : p.params.failAfter = none) (hext : p.params.extent = .finite length)
    (hlength : 1 ≤ length.val) (hfits : p.params.start.val + length.val ≤ lastMillis)
    (hstart : p.params.start.val ≤ p.position)
    (hend : p.position ≤ p.params.start.val + length.val) (hplays : p.plays ≤ maxPlays)
    (budget : Nat) :
    ∃ q, p.playFor budget = some (⟨.timeUpdate, budget⟩, q) ∧
      p.playPlain budget = some (⟨.timeUpdate, budget⟩, q) ∧
      q = { p with
        position := p.params.start.val + (p.position - p.params.start.val + budget) % length.val
        plays :=
          capPlays (p.plays + (p.position - p.params.start.val + budget) / length.val) } := by
  have hfits' : p.params.Fits := fun other hother => by
    rw [hext, Extent.finite.injEq] at hother
    exact hother ▸ hfits
  have hwindow : p.params.extent.isEmpty = false := by
    rw [hext]
    simp only [Extent.isEmpty, beq_eq_false_iff_ne]
    omega
  have hwalk (folding : Bool) :
      p.walk folding budget 0 = some (⟨.timeUpdate, 0 + budget⟩, _) :=
    walk_endless folding hrepeats hlimit hext hfits' hwindow hstart hend hplays
  rw [Nat.zero_add] at hwalk
  refine ⟨_, ?_, ?_, rfl⟩
  · simpa only [playFor, hwindow, Bool.false_eq_true, if_false] using hwalk true
  · simpa only [playPlain, hwindow, Bool.false_eq_true, if_false] using hwalk false

/-- One second of a window of three milliseconds, with the counter two passes before its largest
value. -/
theorem playFor_eq_playPlain_near_full :
    ∃ p q : Player, p.params.repeats = .forever ∧ p.plays = 4294967293 ∧ q.plays = 4294967295 ∧
      p.playFor 1000 = some (⟨.timeUpdate, 1000⟩, q) ∧
      p.playPlain 1000 = some (⟨.timeUpdate, 1000⟩, q) := by
  obtain ⟨q, hfast, hplain, hq⟩ := playFor_eq_playPlain
    (p := ⟨{ repeats := .forever, start := 7, extent := .finite 3 }, 0, 9, 4294967293, .playing,
      true⟩) rfl rfl rfl (by decide) (by decide) (by decide) (by decide) (by decide) 1000
  exact ⟨_, q, rfl, rfl, by rw [hq]; decide, hfast, hplain⟩

end Player

end Playhead

import Mathlib.Data.List.Permutation
import Playhead.Player.Advance

/-!
# The parts of an advance

What one advance can do (`Player.Advances`), what one turn of its walk can do (`Player.Turns`), and
how a walk is put together from its turns (`walk_of_stop`, `walk_of_lap`). Later modules argue by
cases on these two relations and by `walk_induction`; `advance`, `turn` and `walk` are not unfolded
again.
-/

namespace Playhead.Player

variable {p q : Player} {folding : Bool} {left spent cost : Nat} {report : Report}

/-! ## Turns -/

/-- A failure lies within `left` and no later than the end of the pass. -/
theorem failure?_eq_some_iff {ahead : Nat} :
    p.failure? left = some ahead ↔
      ∃ limit, p.params.failAfter = some limit ∧ limit.val - p.played = ahead ∧ ahead ≤ left ∧
        ∀ last, p.params.last? = some last → ahead ≤ last - p.position := by
  unfold failure? toEnd?
  cases p.params.failAfter with
  | none => simp
  | some limit =>
    generalize limit.val - p.played = distance
    cases p.params.last? with
    | none => grind
    | some last => grind

/-- Without a failure, any limit within `left` lies behind the end of the pass. -/
theorem failure?_eq_none_iff :
    p.failure? left = none ↔
      ∀ limit, p.params.failAfter = some limit → limit.val - p.played ≤ left →
        ∃ last, p.params.last? = some last ∧ last - p.position < limit.val - p.played := by
  unfold failure? toEnd?
  cases p.params.failAfter with
  | none => simp
  | some limit =>
    simp only [Option.some.injEq, forall_eq']
    generalize limit.val - p.played = distance
    cases p.params.last? with
    | none => simp
    | some last => simp

/-- The ways in which a turn with `left` remaining can go. -/
inductive Turns (p : Player) (folding : Bool) (left : Nat) : Turn → Prop where
  | fail {ahead : Nat} (hfail : p.failure? left = some ahead) :
      Turns p folding left (.stop ⟨.trackFail, ahead⟩
        { p with position := capMillis (p.position + ahead), lifecycle := .failed })
  | lap {last laps : Nat} (hfail : p.failure? left = none) (hlast : p.params.last? = some last)
      (hreach : last - p.position ≤ left)
      (hmore : p.params.repeats.allowsAnother (capPlays (p.plays + 1)) = true)
      (hlaps : laps = if folding then p.params.freeLaps (left - (last - p.position)) else 0) :
      Turns p folding left (.lap (last - p.position + laps * p.params.window)
        { p with
          position := p.params.start.val
          plays := capPlays (capPlays (p.plays + 1) + laps) })
  | done {last : Nat} (hfail : p.failure? left = none) (hlast : p.params.last? = some last)
      (hreach : last - p.position ≤ left)
      (hover : p.params.repeats.allowsAnother (capPlays (p.plays + 1)) = false) :
      Turns p folding left (.stop ⟨.trackDone, last - p.position⟩
        { p with position := last, plays := capPlays (p.plays + 1), lifecycle := .done })
  | drift (hfail : p.failure? left = none)
      (hroom : ∀ last, p.params.last? = some last → left < last - p.position) :
      Turns p folding left (.stop ⟨.timeUpdate, left⟩
        { p with position := capMillis (p.position + left) })

variable (p folding left) in
theorem turns_turn : p.Turns folding left (p.turn folding left) := by
  unfold turn
  cases hfail : p.failure? left with
  | some ahead => exact .fail hfail
  | none =>
    cases hlast : p.params.last? with
    | none => exact .drift hfail (by simp [hlast])
    | some last =>
      simp only
      split
      · next hreach =>
        unfold wrap
        cases hmore : p.params.repeats.allowsAnother (capPlays (p.plays + 1)) with
        | true =>
          simp only [hmore, if_true]
          exact .lap hfail hlast hreach hmore rfl
        | false =>
          simp only [hmore, Bool.false_eq_true, if_false]
          exact .done hfail hlast hreach hmore
      · next hroom => exact .drift hfail (by simp [hlast]; omega)

/-- `Turns` says exactly what the turn is. -/
theorem turn_eq_iff {t : Turn} : p.turn folding left = t ↔ p.Turns folding left t := by
  constructor
  · rintro rfl
    exact turns_turn p folding left
  · intro h
    unfold turn
    cases h with
    | fail hfail => simp only [hfail]
    | lap hfail hlast hreach hmore hlaps =>
      simp only [hfail, hlast, if_pos hreach, wrap, hmore, if_true, hlaps]
    | done hfail hlast hreach hover =>
      simp only [hfail, hlast, if_pos hreach, wrap, hover, Bool.false_eq_true, if_false]
    | drift hfail hroom =>
      cases hlast : p.params.last? with
      | none => simp only [hfail, drift]
      | some last =>
        have := hroom last hlast
        simp only [hfail, if_neg (Nat.not_le.mpr this), drift]

/-! ## Walks -/

theorem walk_of_stop (h : p.turn folding left = .stop report q) :
    p.walk folding left spent = some ({ report with elapsed := spent + report.elapsed }, q) := by
  rw [walk]
  split
  · next hstop =>
    rw [h] at hstop
    cases hstop
    rfl
  · next hlap =>
    rw [h] at hlap
    cases hlap

theorem walk_of_lap (h : p.turn folding left = .lap cost q)
    (hmoves : ¬(cost = 0 ∧ q.position = p.position ∧ q.plays = p.plays)) :
    p.walk folding left spent = q.walk folding (left - cost) (spent + cost) := by
  rw [walk]
  split
  · next hstop =>
    rw [h] at hstop
    cases hstop
  · next hlap =>
    rw [h] at hlap
    cases hlap
    rw [dif_neg hmoves]

/-- A completed pass that changes nothing and takes no time would repeat for ever. -/
theorem walk_of_rest (h : p.turn folding left = .lap cost q)
    (hrest : cost = 0 ∧ q.position = p.position ∧ q.plays = p.plays) :
    p.walk folding left spent = none := by
  rw [walk]
  split
  · next hstop =>
    rw [h] at hstop
    cases hstop
  · next hlap =>
    rw [h] at hlap
    cases hlap
    rw [dif_pos hrest]

/-- What every turn of a walk keeps: `I` speaks about the player, what is left and what was spent
before a turn, `Q` about the report and the player after the walk. -/
theorem walk_induction {I : Player → Nat → Nat → Prop} {Q : Report → Player → Prop}
    (hlap : ∀ {p q : Player} {left spent cost : Nat}, I p left spent →
      p.turn folding left = .lap cost q → I q (left - cost) (spent + cost))
    (hstop : ∀ {p q : Player} {left spent : Nat} {report : Report}, I p left spent →
      p.turn folding left = .stop report q →
      Q { report with elapsed := spent + report.elapsed } q)
    (hp : I p left spent) (h : p.walk folding left spent = some (report, q)) : Q report q := by
  induction p, left, spent using walk.induct folding with
  | case1 p left spent report' q' hturn =>
    rw [walk_of_stop hturn] at h
    cases h
    exact hstop hp hturn
  | case2 p left spent cost q' hturn hrest =>
    rw [walk_of_rest hturn hrest] at h
    cases h
  | case3 p left spent cost q' hturn hmoves ih =>
    rw [walk_of_lap hturn hmoves] at h
    exact ih (hlap hp hturn) h

/-- A walk never touches buffering, readiness or what the player was built from. -/
theorem walk_frame (h : p.walk folding left spent = some (report, q)) :
    q.params = p.params ∧ q.buffering = p.buffering ∧ q.announced = p.announced := by
  refine walk_induction
    (I := fun r _ _ => r.params = p.params ∧ r.buffering = p.buffering ∧ r.announced = p.announced)
    (Q := fun _ r => r.params = p.params ∧ r.buffering = p.buffering ∧ r.announced = p.announced)
    ?_ ?_ ⟨rfl, rfl, rfl⟩ h
  · rintro r s left spent cost hr hturn
    cases turn_eq_iff.mp hturn
    exact hr
  · rintro r s left spent report hr hturn
    cases turn_eq_iff.mp hturn <;> exact hr

/-- How a walk ends: it used up its budget and changed no lifecycle, or it finished the track, or
the track crashed. -/
inductive Ends (p : Player) (total : Nat) : Report → Player → Prop where
  | update {q : Player} (hkept : q.lifecycle = p.lifecycle) : Ends p total ⟨.timeUpdate, total⟩ q
  | done {q : Player} {elapsed : Nat} (hle : elapsed ≤ total) (hdone : q.lifecycle = .done) :
      Ends p total ⟨.trackDone, elapsed⟩ q
  | fail {q : Player} {elapsed : Nat} (hle : elapsed ≤ total) (hfailed : q.lifecycle = .failed) :
      Ends p total ⟨.trackFail, elapsed⟩ q

theorem ends_of_walk (h : p.walk folding left spent = some (report, q)) :
    p.Ends (spent + left) report q := by
  refine walk_induction
    (I := fun r left' spent' => r.lifecycle = p.lifecycle ∧ spent' + left' = spent + left)
    (Q := fun report r => p.Ends (spent + left) report r) ?_ ?_ ⟨rfl, rfl⟩ h
  · rintro r s left' spent' cost ⟨hkept, htotal⟩ hturn
    obtain ⟨hcost, -⟩ := lap_of_turn hturn
    cases turn_eq_iff.mp hturn
    exact ⟨hkept, by omega⟩
  · rintro r s left' spent' report ⟨hkept, htotal⟩ hturn
    cases turn_eq_iff.mp hturn with
    | fail hfail =>
      obtain ⟨-, -, -, hle, -⟩ := failure?_eq_some_iff.mp hfail
      exact .fail (by simp only; omega) rfl
    | done hfail hlast hreach hover => exact .done (by simp only; omega) rfl
    | drift hfail hroom =>
      rw [← htotal]
      exact .update hkept

/-- Time spent before a walk is added to its report and changes nothing else. -/
theorem walk_spent_add (k : Nat) :
    p.walk folding left (k + spent) =
      (p.walk folding left spent).map fun result =>
        ({ result.1 with elapsed := k + result.1.elapsed }, result.2) := by
  induction p, left, spent using walk.induct folding with
  | case1 p left spent report q hturn =>
    rw [walk_of_stop hturn, walk_of_stop hturn]
    simp only [Option.map_some, Nat.add_assoc]
  | case2 p left spent cost q hturn hrest =>
    rw [walk_of_rest hturn hrest, walk_of_rest hturn hrest, Option.map_none]
  | case3 p left spent cost q hturn hmoves ih =>
    rw [walk_of_lap hturn hmoves, walk_of_lap hturn hmoves, Nat.add_assoc]
    exact ih

/-! ## Advances -/

/-- The ways in which an advance by `budget` can go. -/
inductive Advances (p : Player) (budget : Nat) : Option (Report × Player) → Prop where
  | ended (hended : p.isEnded = true) : Advances p budget (some (⟨.noReport, 0⟩, p))
  | buffer (hactive : p.isEnded = false) (hearly : budget < p.buffering) :
      Advances p budget
        (some (⟨.timeUpdate, budget⟩, { p with buffering := p.buffering - budget }))
  | ready (hactive : p.isEnded = false) (hdue : p.buffering ≤ budget)
      (hfresh : p.announced = false) :
      Advances p budget
        (some (⟨.trackReady, p.buffering⟩, { p with buffering := 0, announced := true }))
  | idle (hidle : p.lifecycle = .idle) (hdue : p.buffering ≤ budget)
      (hready : p.announced = true) : Advances p budget (some (⟨.noReport, budget⟩, p))
  | skip (hplaying : p.lifecycle = .playing) (hdue : p.buffering ≤ budget)
      (hready : p.announced = true) (hempty : p.params.extent.isEmpty = true) :
      Advances p budget
        (some (⟨.trackDone, 0⟩, { p with position := p.params.start.val, lifecycle := .done }))
  | walk {result : Option (Report × Player)} (hplaying : p.lifecycle = .playing)
      (hdue : p.buffering ≤ budget) (hready : p.announced = true)
      (hwindow : p.params.extent.isEmpty = false) (hwalk : p.walk true budget 0 = result) :
      Advances p budget result

theorem isEnded_eq_false_iff :
    p.isEnded = false ↔ p.lifecycle = .idle ∨ p.lifecycle = .playing := by
  unfold isEnded Lifecycle.isEnded
  cases p.lifecycle <;> simp

theorem isEnded_iff : p.isEnded = true ↔ p.lifecycle = .done ∨ p.lifecycle = .failed := by
  unfold isEnded Lifecycle.isEnded
  cases p.lifecycle <;> simp

theorem isEnded_of_done (h : p.lifecycle = .done) : p.isEnded = true := isEnded_iff.mpr (.inl h)

theorem advances_advance (p : Player) (budget : Nat) : p.Advances budget (p.advance budget) := by
  unfold advance
  cases hended : p.isEnded with
  | true => exact .ended hended
  | false =>
    simp only [Bool.false_eq_true, if_false]
    split
    · next hearly => exact .buffer hended hearly
    · next hdue =>
      have hdue := Nat.not_lt.mp hdue
      cases hready : p.announced with
      | false => exact .ready hended hdue hready
      | true =>
        simp only [Bool.not_true, Bool.false_eq_true, if_false]
        split
        · next hplaying =>
          unfold playFor
          cases hempty : p.params.extent.isEmpty with
          | true => exact .skip hplaying hdue hready hempty
          | false =>
            simp only [Bool.false_eq_true, if_false]
            exact .walk hplaying hdue hready hempty rfl
        · next hidle =>
          have hidle := (isEnded_eq_false_iff.mp hended).resolve_right hidle
          exact .idle hidle hdue hready

/-- `Advances` says exactly what the advance is. -/
theorem advance_eq_iff {budget : Nat} {result : Option (Report × Player)} :
    p.advance budget = result ↔ p.Advances budget result := by
  constructor
  · rintro rfl
    exact advances_advance p budget
  · intro h
    unfold advance
    cases h with
    | ended hended => simp only [hended, if_true]
    | buffer hactive hearly =>
      simp only [hactive, Bool.false_eq_true, if_false, if_pos hearly]
    | ready hactive hdue hfresh =>
      simp only [hactive, Bool.false_eq_true, if_false, if_neg (Nat.not_lt.mpr hdue), hfresh,
        Bool.not_false, if_true]
    | idle hidle hdue hready =>
      have hactive := isEnded_eq_false_iff.mpr (.inl hidle)
      simp only [hactive, Bool.false_eq_true, if_false, if_neg (Nat.not_lt.mpr hdue), hready,
        Bool.not_true, hidle, reduceCtorEq]
    | skip hplaying hdue hready hempty =>
      have hactive := isEnded_eq_false_iff.mpr (.inr hplaying)
      simp only [hactive, Bool.false_eq_true, if_false, if_neg (Nat.not_lt.mpr hdue), hready,
        Bool.not_true, hplaying, if_true, playFor, hempty]
    | walk hplaying hdue hready hwindow hwalk =>
      have hactive := isEnded_eq_false_iff.mpr (.inr hplaying)
      simp only [hactive, Bool.false_eq_true, if_false, if_neg (Nat.not_lt.mpr hdue), hready,
        Bool.not_true, hplaying, if_true, playFor, hwindow, hwalk]

theorem advance_params {budget : Nat} (h : p.advance budget = some (report, q)) :
    q.params = p.params := by
  cases advance_eq_iff.mp h with
  | walk hplaying hdue hready hwindow hwalk => exact (walk_frame hwalk).1
  | _ => rfl

theorem done_of_trackDone {budget : Nat} (h : p.advance budget = some (report, q))
    (hevent : report.event = .trackDone) : q.lifecycle = .done := by
  cases advance_eq_iff.mp h with
  | skip => rfl
  | walk hplaying hdue hready hwindow hwalk =>
    cases ends_of_walk hwalk with
    | done _ hdone => exact hdone
    | _ => cases hevent
  | _ => cases hevent

theorem failed_of_trackFail {budget : Nat} (h : p.advance budget = some (report, q))
    (hevent : report.event = .trackFail) : q.lifecycle = .failed := by
  cases advance_eq_iff.mp h with
  | walk hplaying hdue hready hwindow hwalk =>
    cases ends_of_walk hwalk with
    | fail _ hfailed => exact hfailed
    | _ => cases hevent
  | _ => cases hevent

theorem elapsed_le_budget {budget : Nat} (h : p.advance budget = some (report, q)) :
    report.elapsed ≤ budget := by
  cases advance_eq_iff.mp h with
  | ended => exact Nat.zero_le _
  | buffer => exact Nat.le_refl _
  | ready hactive hdue hfresh => exact hdue
  | idle => exact Nat.le_refl _
  | skip => exact Nat.zero_le _
  | walk hplaying hdue hready hwindow hwalk =>
    cases ends_of_walk hwalk with
    | update => exact Nat.le_of_eq (Nat.zero_add _)
    | done hle => exact Nat.zero_add budget ▸ hle
    | fail hle => exact Nat.zero_add budget ▸ hle

/-- An advance of a track that goes on uses up its budget unless it meets a boundary, and then the
track goes on. -/
theorem routine_advance {budget : Nat} (h : p.advance budget = some (report, q))
    (hactive : p.isEnded = false) (hroutine : report.event.isBoundary = false) :
    report.elapsed = budget ∧ q.isEnded = false := by
  cases advance_eq_iff.mp h with
  | ended hended => exact absurd (hactive.symm.trans hended) (by decide)
  | buffer => exact ⟨rfl, hactive⟩
  | ready => cases hroutine
  | idle => exact ⟨rfl, hactive⟩
  | skip => cases hroutine
  | walk hplaying hdue hready hwindow hwalk =>
    cases ends_of_walk hwalk with
    | update hkept =>
      exact ⟨Nat.zero_add _, isEnded_eq_false_iff.mpr (.inr (hkept.trans hplaying))⟩
    | done => cases hroutine
    | fail => cases hroutine

/-- A boundary that does not end the track is readiness, which is news. -/
theorem boundary_advance {budget : Nat} (h : p.advance budget = some (report, q))
    (hboundary : report.event.isBoundary = true) :
    q.isEnded = true ∨ p.announced = false ∧ q.announced = true := by
  cases advance_eq_iff.mp h with
  | ended => cases hboundary
  | buffer => cases hboundary
  | ready hactive hdue hfresh => exact .inr ⟨hfresh, rfl⟩
  | idle => cases hboundary
  | skip => exact .inl (isEnded_iff.mpr (.inl rfl))
  | walk hplaying hdue hready hwindow hwalk =>
    cases ends_of_walk hwalk with
    | update => cases hboundary
    | done _ hdone => exact .inl (isEnded_iff.mpr (.inl hdone))
    | fail _ hfailed => exact .inl (isEnded_iff.mpr (.inr hfailed))

/-! ## Runs -/

theorem perform_params (p : Player) (c : Command) : (p.perform c).1.params = p.params := by
  cases c <;>
    simp only [perform, play, pause, rewind, finish, seek, clearRepeat] <;>
    grind

theorem act_command (p : Player) (c : Command) :
    p.act (.command c) = some (.acted (p.perform c).2, (p.perform c).1) := rfl

theorem act_advance_eq_some_iff {budget : Nat} {reply : Reply} :
    p.act (.advance budget) = some (reply, q) ↔
      ∃ report, p.advance budget = some (report, q) ∧ reply = .reported report := by
  simp only [act, Option.map_eq_some_iff, Prod.mk.injEq, Prod.exists]
  grind

theorem run_nil_eq_some_iff {replies : List Reply} :
    p.run [] = some (replies, q) ↔ replies = [] ∧ q = p := by
  simp only [run, Option.some.injEq, Prod.mk.injEq]
  grind

theorem run_cons_eq_some_iff {r : Player} {a : Action} {rest : List Action}
    {replies : List Reply} :
    p.run (a :: rest) = some (replies, r) ↔
      ∃ reply q more, p.act a = some (reply, q) ∧ q.run rest = some (more, r) ∧
        replies = reply :: more := by
  simp only [run, Option.bind_eq_bind, Option.bind_eq_some_iff, Prod.exists, Option.some.injEq,
    Prod.mk.injEq]
  grind

theorem act_params {a : Action} {reply : Reply} (h : p.act a = some (reply, q)) :
    q.params = p.params := by
  cases a with
  | command c =>
    rw [act_command] at h
    cases h
    exact p.perform_params c
  | advance budget =>
    obtain ⟨report, hadvance, -⟩ := act_advance_eq_some_iff.mp h
    exact advance_params hadvance

theorem run_induction {I : Player → Prop}
    (hact : ∀ {p q : Player} {a : Action} {reply : Reply}, I p → p.act a = some (reply, q) → I q)
    {actions : List Action} {replies : List Reply} (hp : I p)
    (h : p.run actions = some (replies, q)) : I q := by
  induction actions generalizing p replies with
  | nil => exact (run_nil_eq_some_iff.mp h).2 ▸ hp
  | cons a rest ih =>
    obtain ⟨reply, r, more, ha, hrest, -⟩ := run_cons_eq_some_iff.mp h
    exact ih (hact hp ha) hrest

theorem run_params {actions : List Action} {replies : List Reply}
    (h : p.run actions = some (replies, q)) : q.params = p.params :=
  run_induction (I := fun r => r.params = p.params) (fun hr ha => (act_params ha).trans hr) rfl h

/-- Players that actions make out of a new one. -/
def Reachable (p : Player) : Prop :=
  ∃ params actions replies, (new params).run actions = some (replies, p)

end Playhead.Player

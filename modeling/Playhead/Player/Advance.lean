import Playhead.Player.Basic

/-!
# How time passes

`Player.advance` lets at most a budget of time pass and stops at the first boundary: readiness,
failure, or the end of the last pass. While the track plays, time is walked pass by pass
(`Player.turn`, `Player.walk`); passes of an endless track that nothing can interrupt are counted
at once instead of being walked.

A pass over a window whose end coincides with its start takes no time. An endless track with such
a window keeps turning without ever using up its budget, and then the walk has no answer: it is
`none` exactly when a turn leaves everything as it was.
-/

namespace Playhead

/-- What one advance ran into and the time that it took. -/
structure Report where
  event : Event
  elapsed : Nat
  deriving DecidableEq, Repr

/-- One turn of the walk: it ends the advance, or completes a pass and goes on. -/
inductive Turn where
  | stop (report : Report) (player : Player)
  | lap (cost : Nat) (player : Player)
  deriving DecidableEq, Repr

namespace Params

/-- Length of the window; an endless one counts as empty. -/
def window (p : Params) : Nat :=
  match p.extent with
  | .finite length => length.val
  | .unbounded => 0

/-- Whole passes that can be counted without walking them when `left` remains. Only an endless
track without a failure limit has such passes, and one full pass is always left to the walk. -/
def freeLaps (p : Params) (left : Nat) : Nat :=
  match p.repeats, p.failAfter with
  | .forever, none => left / p.window - 1
  | _, _ => 0

theorem freeLaps_mul_window_le (p : Params) (left : Nat) : p.freeLaps left * p.window ≤ left := by
  unfold freeLaps
  split
  · exact Nat.le_trans (Nat.mul_le_mul_right _ (Nat.sub_le _ _)) (Nat.div_mul_le_self _ _)
  · simp

end Params

namespace Player

variable (p : Player)

/-- Content time played so far, over all passes. -/
def played : Nat :=
  match p.params.extent with
  | .finite length =>
    capMillis (capMillis (p.plays * length.val) + (p.position - p.params.start.val))
  | .unbounded => p.position - p.params.start.val

/-- Time to the end of the current pass, unless the window has no end. -/
def toEnd? : Option Nat := p.params.last?.map (· - p.position)

/-- Time to the failure, if it falls within `left` and no later than the end of the pass. -/
def failure? (left : Nat) : Option Nat :=
  match p.params.failAfter with
  | none => none
  | some limit =>
    let ahead := limit.val - p.played
    if ahead ≤ left && p.toEnd?.all (ahead ≤ ·) then some ahead else none

/-- The turn that reaches `last`, the end of the window, after `cost`. -/
def wrap (folding : Bool) (left last : Nat) : Turn :=
  let cost := last - p.position
  let plays := capPlays (p.plays + 1)
  if p.params.repeats.allowsAnother plays then
    let laps := if folding then p.params.freeLaps (left - cost) else 0
    .lap (cost + laps * p.params.window)
      { p with position := p.params.start.val, plays := capPlays (plays + laps) }
  else .stop ⟨.trackDone, cost⟩ { p with position := last, plays, lifecycle := .done }

/-- Move on inside the current pass. -/
def drift (left : Nat) : Turn :=
  .stop ⟨.timeUpdate, left⟩ { p with position := capMillis (p.position + left) }

/-- One turn of the walk with `left` of the budget remaining. A failure comes before the end of a
pass at the same instant. -/
def turn (folding : Bool) (left : Nat) : Turn :=
  match p.failure? left with
  | some ahead =>
    .stop ⟨.trackFail, ahead⟩
      { p with position := capMillis (p.position + ahead), lifecycle := .failed }
  | none =>
    match p.params.last? with
    | some last => if last - p.position ≤ left then p.wrap folding left last else p.drift left
    | none => p.drift left

/-- How far a player can still change without time passing. -/
def unsettled : Nat :=
  2 * ((maxPlays - p.plays) + (p.plays - maxPlays)) +
    if p.position = p.params.start.val then 0 else 1

variable {p}

/-- A completed pass fits the time that was left and puts the play head back to the start. -/
theorem lap_of_turn {folding : Bool} {left cost : Nat} {q : Player}
    (h : p.turn folding left = .lap cost q) :
    cost ≤ left ∧ q.position = p.params.start.val ∧ q.params = p.params ∧
      ∃ laps, q.plays = capPlays (capPlays (p.plays + 1) + laps) := by
  unfold turn at h
  split at h
  · cases h
  · split at h
    · next last _ =>
      split at h
      · next hle =>
        simp only [wrap] at h
        split at h
        · injection h with hcost hq
          subst hq
          refine ⟨?_, rfl, rfl, _, rfl⟩
          subst hcost
          have := p.params.freeLaps_mul_window_le (left - (last - p.position))
          split <;> omega
        · cases h
      · cases h
    · cases h

/-- A completed pass that takes no time but changes something brings the player closer to rest. -/
theorem unsettled_lt_of_turn {folding : Bool} {left : Nat} {q : Player}
    (h : p.turn folding left = .lap 0 q) (hne : ¬(q.position = p.position ∧ q.plays = p.plays)) :
    q.unsettled < p.unsettled := by
  obtain ⟨-, hpos, hparams, laps, hplays⟩ := lap_of_turn h
  unfold unsettled
  rw [hpos, hplays] at hne
  rw [hparams, hpos, hplays, if_pos rfl]
  simp only [capPlays] at *
  generalize maxPlays = most at *
  split <;> omega

/-- Walk pass by pass with `left` of the budget remaining after `spent`. -/
def walk (folding : Bool) (p : Player) (left spent : Nat) : Option (Report × Player) :=
  match _h : p.turn folding left with
  | .stop report q => some ({ report with elapsed := spent + report.elapsed }, q)
  | .lap cost q =>
    if _rest : cost = 0 ∧ q.position = p.position ∧ q.plays = p.plays then none
    else walk folding q (left - cost) (spent + cost)
termination_by (left, p.unsettled)
decreasing_by
  obtain ⟨hle, -⟩ := lap_of_turn _h
  by_cases hcost : cost = 0
  · subst hcost
    exact Prod.Lex.right _ (unsettled_lt_of_turn _h fun hrest => _rest ⟨rfl, hrest⟩)
  · exact Prod.Lex.left _ _ (by omega)

variable (p)

/-- Let a playing track run for at most `budget`. An empty window has nothing to play and ends at
once. -/
def playFor (budget : Nat) : Option (Report × Player) :=
  if p.params.extent.isEmpty then
    some (⟨.trackDone, 0⟩, { p with position := p.params.start.val, lifecycle := .done })
  else walk true p budget 0

/-- Let at most `budget` pass and report what stopped the clock. -/
def advance (budget : Nat) : Option (Report × Player) :=
  if p.isEnded then some (⟨.noReport, 0⟩, p)
  else if budget < p.buffering then
    some (⟨.timeUpdate, budget⟩, { p with buffering := p.buffering - budget })
  else if !p.announced then
    some (⟨.trackReady, p.buffering⟩, { p with buffering := 0, announced := true })
  else if p.lifecycle = .playing then p.playFor budget
  else some (⟨.noReport, budget⟩, p)

end Player

/-! ## Runs -/

/-- Anything that can be done to a player. -/
inductive Action where
  | command (command : Command)
  | advance (budget : Nat)
  deriving DecidableEq, Repr

/-- What an action answers. -/
inductive Reply where
  | acted (effect : Bool)
  | reported (report : Report)
  deriving DecidableEq, Repr

namespace Player

/-- Carry out one action; `none` when time never stops passing. -/
def act (p : Player) : Action → Option (Reply × Player)
  | .command c => let (q, effect) := p.perform c; some (.acted effect, q)
  | .advance budget => (p.advance budget).map fun (report, q) => (.reported report, q)

/-- Carry out actions in order. -/
def run (p : Player) : List Action → Option (List Reply × Player)
  | [] => some ([], p)
  | a :: rest => do
    let (reply, q) ← p.act a
    let (replies, r) ← q.run rest
    some (reply :: replies, r)

end Player

end Playhead

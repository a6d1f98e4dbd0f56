import Playhead.Player.Advance

/-!
# Advances without a walk

A track that plays through a window on the time line need not be walked pass by pass: where an
advance comes to can be told from the content time that its budget reaches. `Player.leap` takes
that way wherever it is open, which matters to a caller who spends a long budget on a short window,
and answers what `Player.advance` answers.
-/

namespace Playhead

/-- Content time up to which a failure limit is met: that of all passes, and for an endless track
that of the passes that the counter tells apart. -/
def Params.horizon (p : Params) : Nat :=
  match p.repeats with
  | .times passes => passes.val * p.window
  | .forever => (maxPlays + 1) * p.window

/-- The failure limit, if it is met and no later than `time` of content. -/
def Params.failing? (p : Params) (time : Nat) : Option Millis :=
  p.failAfter.filter (·.val ≤ min time p.horizon)

/-- The number of passes, if they are over no later than `time` of content. -/
def Params.passed? (p : Params) (time : Nat) : Option (Fin UInt32.size) :=
  match p.repeats with
  | .times passes => if passes.val * p.window ≤ time then some passes else none
  | .forever => none

namespace Player

variable (p : Player) (budget : Nat)

/-- Where an advance of a track that plays through its window comes to. -/
def landing : Report × Player :=
  let window := p.params.window
  let time := p.plays * window + (p.position - p.params.start.val)
  match p.params.failing? (time + budget) with
  | some limit =>
    (⟨.trackFail, limit.val - time⟩,
      if time < limit.val then
        { p with
          position := p.params.start.val + (limit.val - 1) % window + 1
          plays := (limit.val - 1) / window
          lifecycle := .failed }
      else { p with lifecycle := .failed })
  | none =>
    match p.params.passed? (time + budget) with
    | some passes =>
      (⟨.trackDone, passes.val * window - time⟩,
        { p with
          position := p.params.start.val + window
          plays := passes.val
          lifecycle := .done })
    | none =>
      (⟨.timeUpdate, budget⟩,
        { p with
          position := p.params.start.val + (time + budget) % window
          plays := capPlays ((time + budget) / window) })

/-- Whether the play head moves through a window that is not empty and lies on the time line, with
a pass to play. -/
def isUnderway : Bool :=
  p.isPlaying && p.announced && p.buffering == 0 && p.plays ≤ maxPlays &&
    (match p.params.repeats with
      | .times passes => p.plays < passes.val
      | .forever => true) &&
    match p.params.extent with
    | .finite length =>
      0 < length.val && p.params.start.val + length.val ≤ lastMillis &&
        p.params.start.val ≤ p.position && p.position ≤ p.params.start.val + length.val
    | .unbounded => false

/-- Let at most `budget` pass, without walking through the passes where that can be helped. -/
def leap : Option (Report × Player) :=
  if p.isUnderway then some (p.landing budget) else p.advance budget

end Player

end Playhead

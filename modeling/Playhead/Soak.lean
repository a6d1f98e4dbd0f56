import Playhead.Fault
import Playhead.Scenario.Basic
import Playhead.Player.Advance
import Playhead.Random.ChaCha
import Playhead.Random.Draw

/-!
# Soaking

A soak drives the player of a scenario with random actions and checks after each one that it kept
what a player keeps: the play head stays in its window, passes stay within their number, events
come with the states they announce, and a failed player stays as it is. A failed player is
replaced by a fresh one now and then. The random choices come from any stream of words; a seeded
stream makes a soak repeatable. There is no report if a draw or an advance goes on for ever, or if a
sum on the way does not fit its word.
-/

namespace Playhead

/-- Something that a player must never do. -/
inductive Violation where
  | overspent (elapsed budget : Nat)
  | reportedAfterEnd (report : Report)
  | readyTwice
  | doneWithoutEntering
  | failWithoutEntering
  | changedQuietly (event : Event) (before after : Lifecycle)
  | beforeStart (position start : Nat)
  | pastEnd (position last : Nat)
  | tooManyPlays (plays passes : Nat)
  | leftFailed (now : Lifecycle)
  | changedAfterFailure
  deriving DecidableEq, Repr

namespace Violation

def message : Violation → String
  | overspent elapsed budget => s!"consumed {elapsed}ms of a {budget}ms budget"
  | reportedAfterEnd report => s!"ended track reported {report.event.label} +{report.elapsed}"
  | readyTwice => "track-ready reported twice"
  | doneWithoutEntering => "track-done without entering done"
  | failWithoutEntering => "track-fail without entering failed"
  | changedQuietly event before after =>
    s!"{event.label} changed state {before.label} -> {after.label}"
  | beforeStart position start => s!"position {position} before start {start}"
  | pastEnd position last => s!"position {position} past end {last}"
  | tooManyPlays plays passes => s!"completed {plays} plays of {passes}"
  | leftFailed now => s!"left failed for {now.label}"
  | changedAfterFailure => "failed simulator changed"

end Violation

namespace Soak

/-- What a soak counted. -/
structure Report where
  operations : Nat := 0
  /-- Time spent over all players. -/
  advanced : Nat := 0
  ready : Nat := 0
  done : Nat := 0
  fail : Nat := 0
  /-- Players replaced after they failed. -/
  restarts : Nat := 0
  deriving DecidableEq, Repr

/-- A soak under way, with its source of words in state `source`. -/
structure State (σ : Type) where
  source : σ
  player : Player
  /-- Whether the present player has reported readiness. -/
  readySeen : Bool := false
  report : Report := {}

/-- Why a soak ends without a report. -/
inductive Failure where
  | flawed (flaw : Flaw)
  | violated (operation : Nat) (violation : Violation)
  deriving DecidableEq, Repr

/-- Steps and seeks are drawn from ranges that grow with the window. -/
def span (p : Params) : Nat :=
  max ((p.last?.map (· - p.start.val)).getD 2000) 1

/-- The longest step that is drawn. -/
def longestStep (span : Nat) : Nat := span / 2 + 1

/-- The distance that seeks are scaled by. -/
def reach (span : Nat) : Nat :=
  if span ≤ greatestSigned.toNat then span else greatestSigned.toNat / 2

/-- The least and the greatest offset that a seek is drawn with: a quarter beyond either end. -/
def seekBounds (span : Nat) : Except Fault (Int × Int) :=
  (addSigned (reach span) (reach span / 4 : Nat)).map fun high => (-(reach span / 4 : Nat), high)

section

variable {σ : Type} (next : σ → UInt32 × σ)

/-- Draw an action. -/
def draw (span : Nat) (s : σ) : Except Fault (Action × σ) := do
  let (choice, s) ← orEndless (Draw.choice? next 100 s)
  if choice < 55 then
    let (budget, s) ← orEndless (Draw.upTo? next (longestStep span) s)
    return (.advance budget, s)
  else if choice < 65 then return (.command .play, s)
  else if choice < 72 then return (.command .pause, s)
  else if choice < 78 then return (.command .rewind, s)
  else if choice < 82 then return (.command .finish, s)
  else if choice < 94 then
    let (low, high) ← seekBounds span
    let (offset, s) ← orEndless (Draw.between? next low high s)
    return (.command (.seek offset), s)
  else return (.command .clearRepeat, s)

/-- What is wrong with a report, given the player before and after it. -/
def reportViolation? (readySeen : Bool) (budget : Nat) (before after : Player)
    (report : Playhead.Report) : Option Violation :=
  if budget < report.elapsed then some (.overspent report.elapsed budget)
  else if before.isEnded && report != ⟨.noReport, 0⟩ then some (.reportedAfterEnd report)
  else
    match report.event with
    | .trackReady => if readySeen then some .readyTwice else none
    | .trackDone =>
      if after.lifecycle = .done && before.isActive then none else some .doneWithoutEntering
    | .trackFail =>
      if after.lifecycle = .failed && before.isActive then none else some .failWithoutEntering
    | event =>
      if before.lifecycle = after.lifecycle then none
      else some (.changedQuietly event before.lifecycle after.lifecycle)

/-- What is wrong with a player after an action, given the player before it. -/
def stateViolation? (before after : Player) : Option Violation :=
  if after.position < after.params.start.val then
    some (.beforeStart after.position after.params.start.val)
  else
    match overrun? after with
    | some violation => some violation
    | none =>
      if before.lifecycle = .failed then
        if after.lifecycle ≠ .failed then some (.leftFailed after.lifecycle)
        else if after.position ≠ before.position || after.plays ≠ before.plays then
          some .changedAfterFailure
        else none
      else none
where
  overrun? (p : Player) : Option Violation :=
    match p.params.last? with
    | some last => if last < p.position then some (.pastEnd p.position last) else passes? p
    | none => passes? p
  passes? (p : Player) : Option Violation :=
    match p.params.repeats with
    | .times passes =>
      if passes.val < p.plays then some (.tooManyPlays p.plays passes.val) else none
    | .forever => none

/-- Whether a reply reports readiness. -/
def announces : Reply → Bool
  | .reported ⟨.trackReady, _⟩ => true
  | _ => false

/-- Count what an event reports. -/
def Report.tally (r : Report) : Event → Report
  | .trackReady => { r with ready := r.ready + 1 }
  | .trackDone => { r with done := r.done + 1 }
  | .trackFail => { r with fail := r.fail + 1 }
  | _ => r

/-- Count what a reply reports, and the time that it took. -/
def Report.count (r : Report) : Reply → Except Fault Report
  | .reported ⟨event, elapsed⟩ =>
    (addMillis r.advanced elapsed).map fun advanced => { r.tally event with advanced }
  | .acted _ => .ok r

/-- Replace a failed player, one time in five. -/
def restart (fresh : Player) (s : State σ) : State σ :=
  if s.player.lifecycle = .failed then
    let (hit, source) := Draw.oneInFive next s.source
    if hit then
      { source, player := fresh, readySeen := false,
        report := { s.report with restarts := s.report.restarts + 1 } }
    else { s with source }
  else s

/-- Carry out an action and check it. The time that it took is counted before it is checked. -/
def perform (action : Action) (s : State σ) : Except Fault (Except Violation (State σ)) := do
  let (reply, player) ← orEndless (s.player.act action)
  let report ← s.report.count reply
  let wrong :=
    match action, reply with
    | .advance budget, .reported report =>
      reportViolation? s.readySeen budget s.player player report
    | _, _ => none
  match wrong.or (stateViolation? s.player player) with
  | some violation => return .error violation
  | none =>
    return .ok { s with
      player, readySeen := s.readySeen || announces reply,
      report := { report with operations := report.operations + 1 } }

/-- One operation: perhaps a restart, then a random action. -/
def turn (fresh : Player) (span : Nat) (s : State σ) :
    Except Fault (Except Violation (State σ)) := do
  let s := restart next fresh s
  let (action, source) ← draw next span s.source
  perform action { s with source }

/-- A number of operations, of which the next one is `operation`. -/
def turns (fresh : Player) (span : Nat) :
    (count operation : Nat) → State σ → Except Fault (Except Failure (State σ))
  | 0, _, s => .ok (.ok s)
  | count + 1, operation, s =>
    match turn next fresh span s with
    | .error fault => .error fault
    | .ok (.error violation) => .ok (.error (.violated operation violation))
    | .ok (.ok s) => turns fresh span count (operation + 1) s

/-- Soak the track of a scenario, with random words from `source`. -/
def run (scenario : Scenario) (operations : Nat) (source : σ) :
    Except Fault (Except Failure Report) :=
  match scenario.content.resolve with
  | .error flaw => .ok (.error (.flawed flaw))
  | .ok content =>
    let fresh := Player.ofTrack scenario.track content
    (turns next fresh (span fresh.params) operations 0 { source, player := fresh }).map
      (·.map State.report)

end

/-- A soak that a seed repeats. -/
def seeded (scenario : Scenario) (seed operations : Nat) : Except Fault (Except Failure Report) :=
  run ChaCha.next scenario operations (ChaCha.ofSeed (UInt64.ofNat seed))

/-- The line that reports a soak. -/
def Report.line (r : Report) (seed : Nat) : String :=
  s!"soak ok: seed {seed} • {r.operations} operations • {r.advanced}ms advanced" ++
  s!" • ready {r.ready} / done {r.done} / fail {r.fail} • {r.restarts} restarts"

end Soak

end Playhead

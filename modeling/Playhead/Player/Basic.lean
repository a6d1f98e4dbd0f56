import Playhead.Time
import Playhead.Lifecycle

/-!
# The player

A player holds one track with a playable window, a play head inside that window, a counter of
completed passes and the buffering still to come. This module has its state, what can be read
off it, and the commands. A command answers whether it had an effect and never touches buffering;
how time passes is the subject of `Playhead.Player.Advance`.
-/

namespace Playhead

/-- What a player is built from; it never changes while the player lives. -/
structure Params where
  /-- Duration that was asked for, which need not be that of the window. -/
  requested : Millis := .zero
  repeats : Repeat := .once
  /-- Content time that plays before the track crashes. -/
  failAfter : Option Millis := none
  /-- First position of the window. -/
  start : Millis := .zero
  extent : Extent := .unbounded
  /-- Buffering needed before the first playback. -/
  delay : Millis := .zero
  deriving DecidableEq, Repr

namespace Params

/-- Last position of the window, unless it has no end. -/
def last? (p : Params) : Option Nat :=
  match p.extent with
  | .finite length => some (capMillis (p.start.val + length.val))
  | .unbounded => none

/-- Move `position` into the window. -/
def clip (p : Params) (position : Nat) : Nat :=
  let position := max position p.start.val
  match p.last? with
  | some last => min position last
  | none => position

/-- Whether `position` is the end of a window that has one. -/
def isLast (p : Params) (position : Nat) : Bool := p.last? == some position

end Params

/-- A simulated player of one track. -/
structure Player where
  params : Params
  /-- Buffering still to come. -/
  buffering : Nat
  /-- The play head. -/
  position : Nat
  /-- Completed passes. -/
  plays : Nat
  lifecycle : Lifecycle
  /-- Whether readiness was reported. -/
  announced : Bool
  deriving DecidableEq, Repr

/-- The commands of a player. -/
inductive Command where
  | play
  | pause
  | rewind
  | finish
  | clearRepeat
  /-- Move the play head to this offset from the start of the window. -/
  | seek (offset : Int)
  deriving DecidableEq, Repr

namespace Player

/-- An idle player at the start of its window. -/
def new (params : Params) : Player where
  params := { params with repeats := params.repeats.atLeastOnce }
  buffering := params.delay.val
  position := params.start.val
  plays := 0
  lifecycle := .idle
  announced := false

variable (p : Player)

/-- Load status for the consumer of the track. -/
def loading : Loading :=
  if p.lifecycle = .failed then .failed else if p.buffering = 0 then .ready else .notReady

def isActive : Bool := p.lifecycle.isActive

def isEnded : Bool := p.lifecycle.isEnded

def isPlaying : Bool := p.lifecycle == .playing

/-- At the start of the window with no pass completed. -/
def atStart : Bool := p.position == p.params.start.val && p.plays == 0

/-- The pass counter as a finished track has it. -/
def exhausted : Nat :=
  match p.params.repeats with
  | .times passes => passes.val
  | .forever => p.plays

/-! ## Commands -/

def play : Player × Bool :=
  if p.lifecycle = .idle then ({ p with lifecycle := .playing }, true) else (p, false)

def pause : Player × Bool :=
  if p.lifecycle = .playing then ({ p with lifecycle := .idle }, true) else (p, false)

/-- Whether the lifecycle lets the track start over. Live content that was finished stays so. -/
def canRewind : Bool :=
  match p.lifecycle with
  | .failed => false
  | .done => p.params.extent != .unbounded
  | _ => true

/-- Back to the start of the window, with no pass completed. -/
def rewind : Player × Bool :=
  if p.canRewind && !p.atStart then
    ({ p with position := p.params.start.val, plays := 0, lifecycle := .idle }, true)
  else (p, false)

/-- End the track now. Live content parks the play head at the start of its window. -/
def finish : Player × Bool :=
  if p.isEnded then (p, false)
  else
    ({ p with
      position := p.params.last?.getD p.params.start.val
      plays := p.exhausted
      lifecycle := .done }, true)

/-- Where a seek to `offset` lands. -/
def seekTarget (offset : Int) : Nat :=
  p.params.clip (capMillis (p.params.start.val + offset).toNat)

/-- Move the play head to `offset` from the start of the window, clipped to the window. Landing on
the end of the last pass finishes the track; leaving the end of a finished track makes it idle
again, inside its last pass. -/
def seek (offset : Int) : Player × Bool :=
  let target := p.seekTarget offset
  if p.lifecycle = .failed || target == p.position then (p, false)
  else if p.params.isLast target && !p.params.repeats.allowsAnother (capPlays (p.plays + 1)) then
    ({ p with position := target, plays := p.exhausted, lifecycle := .done }, true)
  else if p.lifecycle = .done then
    ({ p with position := target, plays := p.plays - 1, lifecycle := .idle }, true)
  else ({ p with position := target }, true)

/-- Forget the completed passes. Only a finished track that completed some is reopened by it, and
only that counts as an effect. -/
def clearRepeat : Player × Bool :=
  if p.lifecycle = .failed then (p, false)
  else if p.lifecycle = .done && 1 ≤ p.plays then
    ({ p with plays := 0, lifecycle := .idle }, true)
  else ({ p with plays := 0 }, false)

/-- Carry out one command. -/
def perform : Command → Player × Bool
  | .play => p.play
  | .pause => p.pause
  | .rewind => p.rewind
  | .finish => p.finish
  | .clearRepeat => p.clearRepeat
  | .seek offset => p.seek offset

end Player

namespace Command

/-- How a command is written in transcripts. -/
def label : Command → String
  | play => "play"
  | pause => "pause"
  | rewind => "rewind"
  | finish => "finish"
  | clearRepeat => "clear-repeat"
  | seek offset => "seek " ++ toString offset

end Command

end Playhead

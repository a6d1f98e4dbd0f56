/-!
# States and events of a player

The lifecycle of a track, what one advance of time reports, and the load status that a consumer
of the track sees. Each has one written label, used in scenario files and in transcripts.
-/

namespace Playhead

/-- Lifecycle of a track. -/
inductive Lifecycle where
  /-- Not playing; buffering still progresses as time passes. -/
  | idle
  /-- Buffering or playing. -/
  | playing
  /-- Every pass is over. Rewinding, seeking or clearing the repeats can leave it. -/
  | done
  /-- Playback crashed; nothing leaves this state. -/
  | failed
  deriving DecidableEq, Repr

/-- What one advance of time ran into. -/
inductive Event where
  /-- The play head moved, or buffering progressed. -/
  | timeUpdate
  /-- Buffering finished. -/
  | trackReady
  /-- The last pass reached its end. -/
  | trackDone
  /-- Playback crashed. -/
  | trackFail
  /-- Nothing that can be observed happened. -/
  | noReport
  deriving DecidableEq, Repr

/-- Load status of a track. -/
inductive Loading where
  | notReady
  | ready
  | failed
  deriving DecidableEq, Repr

namespace Lifecycle

def all : List Lifecycle := [idle, playing, done, failed]

def label : Lifecycle → String
  | idle => "idle"
  | playing => "playing"
  | done => "done"
  | failed => "failed"

def ofLabel? (s : String) : Option Lifecycle := all.find? (·.label == s)

/-- Neither finished nor failed. -/
def isActive (l : Lifecycle) : Bool := l == idle || l == playing

/-- Finished or failed. -/
def isEnded (l : Lifecycle) : Bool := l == done || l == failed

end Lifecycle

namespace Event

def all : List Event := [timeUpdate, trackReady, trackDone, trackFail, noReport]

def label : Event → String
  | timeUpdate => "time-update"
  | trackReady => "track-ready"
  | trackDone => "track-done"
  | trackFail => "track-fail"
  | noReport => "no-report"

def ofLabel? (s : String) : Option Event := all.find? (·.label == s)

/-- An advance that reports a boundary stops there, with budget possibly left over. -/
def isBoundary (e : Event) : Bool := e == trackReady || e == trackDone || e == trackFail

/-- Reports that come with every slice of time and carry no news. -/
def isRoutine (e : Event) : Bool := e == timeUpdate || e == noReport

end Event

namespace Loading

def all : List Loading := [notReady, ready, failed]

def label : Loading → String
  | notReady => "not-ready"
  | ready => "ready"
  | failed => "failed"

def ofLabel? (s : String) : Option Loading := all.find? (·.label == s)

end Loading

end Playhead

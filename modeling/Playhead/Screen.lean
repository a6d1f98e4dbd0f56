import Playhead.Session.Basic
import Playhead.Unicode.Column
import Playhead.Player.Line
import Playhead.Decimal.Binary64

/-!
# The screen of a session

The texts that a session shows: the header, the status line, the play head with its progress, the
newest entries of the event log, and the help for the keys. The screen is a thousand columns wide.
Panels are stacked; all but the event log have a fixed height.
-/

namespace Playhead.Screen

/-- Time as minutes, seconds and milliseconds: `MM:SS.mmm`. -/
def timeText (ms : Nat) : String :=
  zeroPadded 2 (ms / 1000 / 60) ++ ":" ++ zeroPadded 2 (ms / 1000 % 60) ++ "." ++
    zeroPadded 3 (ms % 1000)

/-- The help for the keys. -/
def controlsText (stepMs seekMs : Nat) : String :=
  " | ".intercalate
    ["[space/p] play/pause", "[t] clock on/off", s!"[n] step +{stepMs}ms",
      s!"[h/l] seek -/+{seekMs}ms", "[r] rewind", "[f] finish", "[c] clear repeat",
      "[x] run script", "[R] reset", "[q] quit"]

/-- One part of the time text. The time that remains is shown only if the window has an end. -/
def fieldText? (r : Runner) : TimeField → Option String
  | .position => some ("at " ++ timeText r.player.position)
  | .window =>
    some ("window " ++ timeText r.player.params.start.val ++ "-" ++
      r.player.params.last?.elim "live" timeText)
  | .remaining => r.player.params.last?.map fun last => "-" ++ timeText (last - r.player.position)
  | .clock => some ("clock " ++ timeText r.clock)

/-- The time text, unless it has no parts. -/
def timesText? (r : Runner) (ui : UiSettings) : Option String :=
  match ui.timeFields.filterMap (fieldText? r) with
  | [] => none
  | parts => some (ui.timeSeparator.intercalate parts)

/-- The passes completed, out of how many. -/
def playsText (p : Player) : String :=
  s!"PLAYS: {p.plays}/" ++
    match p.params.repeats with
    | .times passes => toString passes.val
    | .forever => "∞"

/-- The part of the current pass that was played; nothing of live content. -/
def progress (p : Player) : Binary64 :=
  if p.params.window = 0 then .zero false
  else
    let ratio :=
      (Binary64.ofNat (p.position - p.params.start.val)).quotient (.ofNat p.params.window)
    if Binary64.one.below ratio then .one else ratio

/-- The parts of the status line. -/
def statusParts (s : Session) (settings : Settings) : List String :=
  let p := s.runner.player
  [s!" STATE: {p.lifecycle.label}", s!"TRACK: {p.loading.label}", playsText p] ++
  (if 0 < p.params.requested.val then [s!"REQUESTED: {p.params.requested.val}ms"] else []) ++
  (if 0 < p.buffering then [s!"BUFFERING: {p.buffering}ms"] else []) ++
  (timesText? s.runner settings.ui).toList ++
  (s.runner.lastEvent.map fun e => "LAST: " ++ e.label).toList ++
  [if s.clockRunning then s!"CLOCK: running +{settings.sim.tickMs}ms/tick" else "CLOCK: stopped",
    "Scenario: " ++ s.scenario.title] ++
  (s.path.map fun path => "File: " ++ path).toList ++
  (s.notice.map Notice.text).toList

/-- The play head against the end of the window. -/
def playHeadText (p : Player) : String :=
  timeText p.position ++ " / " ++ p.params.last?.elim "live" timeText

/-- Rows for entries that the event log has on a screen of the given height. The other panels and
its own frame take seventeen rows. -/
def eventRows (height : Nat) : Nat := height - 17

/-- The newest entries that fit, oldest first. -/
def visibleEntries (s : Session) (height : Nat) : List Entry :=
  s.log.drop (s.log.length - eventRows height)

/-- The first line of a text as it appears in a box of so many columns, without blanks around
it. -/
def shown (columns : Nat) (s : String) : String :=
  let line := s.toList.takeWhile (· != '\n')
  String.ofList (trimBlank (Unicode.drawn columns (Unicode.clusters line)))

/-- Columns of the header inside its frame. -/
def headerColumns : Nat := 998

/-- Columns of the status inside its frame, which keeps one blank on the left. -/
def statusColumns : Nat := 997

/-- What the panels of a screen show. -/
structure View where
  header : String
  status : String
  /-- Whether the status blinks, as it does for a failed track. -/
  blink : Bool
  playHead : String
  events : List String
  footer : String
  deriving DecidableEq, Repr

/-- The screen of a session on a terminal of the given height. -/
def view (s : Session) (settings : Settings) (height : Nat) : View :=
  let lines := (visibleEntries s height).map Entry.line
  { header := shown headerColumns settings.ui.headerText
    status := shown statusColumns (" • ".intercalate (statusParts s settings))
    blink := s.runner.player.lifecycle = .failed
    playHead := playHeadText s.runner.player
    events := lines ++ List.replicate (eventRows height - lines.length) ""
    footer := controlsText settings.sim.stepMs settings.controls.seekStepMs }

end Playhead.Screen

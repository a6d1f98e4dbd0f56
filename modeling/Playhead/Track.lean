import Playhead.Player.Basic

/-!
# Tracks and content

A track is what an author asks for: a part of some content, played a number of times. The content
is what there is. Together they give the window that can be played, and a player for it.
-/

namespace Playhead

/-- A track as its author requests it. -/
structure Track where
  url : String := ""
  /-- Where playback begins inside the content. -/
  offset : Millis := .zero
  /-- How long to play from `offset`; zero plays to the end of the content. -/
  duration : Millis := .zero
  /-- Passes after the first one; a negative number never stops. -/
  repeatCount : Int := 0
  deriving DecidableEq, Repr

/-- The content behind a track. -/
structure Content where
  /-- Length of the content. -/
  length : Extent := .unbounded
  delay : Millis := .zero
  /-- Content time that plays before it crashes. -/
  failAfter : Option Millis := none
  deriving DecidableEq, Repr

namespace Track

/-- Passes in total: one more than the repeats that were asked for. -/
def repeats (t : Track) : Repeat :=
  if 0 ≤ t.repeatCount then .times ⟨capPlays (t.repeatCount.toNat + 1), capPlays_lt _⟩
  else .forever

/-- Start and length of what can be played. The requested part is clipped to the content; a part
that starts behind the content is empty and lies at the end of it. -/
def window (t : Track) (c : Content) : Millis × Extent :=
  match c.length with
  | .finite length =>
    let start := min t.offset.val length.val
    let last :=
      if 0 < t.duration.val then min (capMillis (start + t.duration.val)) length.val
      else length.val
    (.ofNat start, .finite (.ofNat (last - start)))
  | .unbounded => (t.offset, if 0 < t.duration.val then .finite t.duration else .unbounded)

/-- What a player of the track is built from. -/
def params (t : Track) (c : Content) : Params where
  requested := t.duration
  repeats := t.repeats
  failAfter := c.failAfter
  start := (t.window c).1
  extent := (t.window c).2
  delay := c.delay

end Track

/-- A player for a track against some content. -/
def Player.ofTrack (t : Track) (c : Content) : Player := .new (t.params c)

end Playhead

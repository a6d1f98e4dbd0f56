import Playhead.Player.Basic

/-!
# A player on one line

The summary of a player's state that people read, as `field=value` pairs.
-/

namespace Playhead

namespace Extent

def text : Extent → String
  | finite length => toString length.val
  | unbounded => "unbounded"

end Extent

namespace Repeat

def text : Repeat → String
  | times passes => toString passes.val
  | forever => "forever"

end Repeat

namespace Player

/-- State, load status, play head, window, passes and buffering; the failure limit last, if any. -/
def line (p : Player) : String :=
  s!"state={p.lifecycle.label} track={p.loading.label} pos={p.position}" ++
  s!" start={p.params.start.val} duration={p.params.extent.text}" ++
  s!" plays={p.plays}/{p.params.repeats.text} buffering={p.buffering}" ++
  match p.params.failAfter with
  | some limit => s!" fail_after={limit.val}"
  | none => ""

end Player

end Playhead

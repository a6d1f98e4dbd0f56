import Playhead.Main
import Playhead.Player.Landing
import Playhead.Player.Line
import Playhead.Session.Acts
import Playhead.Screen
import Playhead.Proofs.CommandLine
import Playhead.Proofs.Player.Accounting
import Playhead.Proofs.Player.Bounds
import Playhead.Proofs.Player.Buffering
import Playhead.Proofs.Player.Effects
import Playhead.Proofs.Player.Endless
import Playhead.Proofs.Player.History
import Playhead.Proofs.Player.Limit
import Playhead.Proofs.Player.Reopening
import Playhead.Proofs.Player.Translation
import Playhead.Proofs.Track
import Playhead.Proofs.Scenario.Chunks
import Playhead.Proofs.Scenario.Draws
import Playhead.Proofs.Scenario.Answers
import Playhead.Proofs.Scenario.Lines
import Playhead.Proofs.Scenario.Soaking
import Playhead.Proofs.Scenario.Timekeeping
import Playhead.Proofs.Scenario.Validation
import Playhead.Proofs.Scenario.Verdict
import Playhead.Proofs.Screen
import Playhead.Proofs.Session.EventLog
import Playhead.Proofs.Session.Refinement
import Playhead.Proofs.Session.Resetting
import Playhead.Proofs.Session.Script
import Playhead.Proofs.Session.Seeking
import Playhead.Proofs.Settings.Fallback

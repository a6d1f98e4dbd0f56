import Playhead.Session.Basic
import Playhead.Settings.Loading
import Playhead.Settings.Standard
import Playhead.Scenario.Reading
import Playhead.Scenario.Transcript
import Playhead.Soak

/-!
# The command line

A call of the program replays a scenario, soaks one, prints the usage, or opens a session. What it
prints is worked out here from the arguments and the surroundings, as a whole, and so is the code
that it exits with: a call that fails prints nothing but its error. Files are read with what the
program is given to read them with (`Readers`).
-/

namespace Playhead.CommandLine

/-! ## What is asked for -/

/-- What the arguments of a call ask for, with the words for it as they were given. -/
inductive Call where
  | help
  | run (path? : Option String)
  | soak (path? seed? operations? : Option String)
  | session (path? : Option String)
  deriving DecidableEq, Repr

namespace Call

/-- The first argument decides. Arguments that are left over mean nothing. -/
def ofArguments : List String → Call
  | "-h" :: _ | "--help" :: _ => help
  | "run" :: rest => run rest[0]?
  | "soak" :: rest => soak rest[0]? rest[1]? rest[2]?
  | rest => session rest[0]?

/-- The scenario file that a call names. -/
def path? : Call → Option String
  | help => none
  | run path? | soak path? _ _ | session path? => path?

end Call

def usage : List String :=
  ["usage:",
    "  playsim [SCENARIO]                      drive a scenario interactively",
    "  playsim run SCENARIO                    replay a scenario and print its transcript",
    "  playsim soak SCENARIO [SEED] [OPS]      check invariants with random operations"]

/-- The scenario of a session for which no file is named. -/
def demo : Scenario where
  name := some "demo: buffered clip played twice"
  track := { url := "https://example.com/demo.mp4", duration := .ofNat 4000, repeatCount := 1 }
  content := { length := 6000, delay := .ofNat 750 }
  steps :=
    [.command .play, .run 250 20000, .expect { lifecycle := some .done, plays := some 2 }]

/-! ## Numbers -/

/-- What is wrong with the text of a number. -/
inductive NumberFlaw where
  | empty
  | invalidDigit
  | tooLarge
  deriving DecidableEq, Repr

namespace NumberFlaw

def name : NumberFlaw → String
  | empty => "Empty"
  | invalidDigit => "InvalidDigit"
  | tooLarge => "PosOverflow"

end NumberFlaw

/-- Read digits behind those that make `n`. Of several flaws the first one counts. -/
def readDigits (n : Nat) : List Char → Except NumberFlaw Nat
  | [] => .ok n
  | c :: rest =>
    let n := 10 * n + (c.toNat - '0'.toNat)
    if !c.isDigit then .error .invalidDigit
    else if UInt64.size ≤ n then .error .tooLarge
    else readDigits n rest

/-- Read a number that fits a word. A plus sign may stand before the digits. -/
def readNumber : List Char → Except NumberFlaw Nat
  | [] => .error .empty
  | ['+'] => .error .invalidDigit
  | '+' :: digits => readDigits 0 digits
  | digits => readDigits 0 digits

/-! ## What can go wrong -/

inductive Failure where
  | missingPath
  /-- The scenario file cannot be read. -/
  | unreadable
  | malformed
  | flawed (flaw : Flaw)
  | unmet (unmet : Unmet)
  | violated (seed operation : Nat) (violation : Violation)
  | badNumber (flaw : NumberFlaw)
  /-- A session needs a terminal. -/
  | noTerminal
  deriving DecidableEq, Repr

namespace Failure

/-- A failure as it is reported: its kind, then what is known about it. -/
def text : Failure → String
  | missingPath => quoted ("missing scenario path\n" ++ "\n".intercalate usage ++ "\n")
  | unreadable | noTerminal => "Io"
  | malformed => "Parse"
  | flawed flaw => "Invalid(" ++ quoted flaw.message ++ ")"
  | unmet u => record "Expectation" [("step", toString u.step), ("message", quoted u.detail)]
  | violated seed operation v =>
    record "Invariant"
      [("seed", toString seed), ("operation", toString operation), ("message", quoted v.message)]
  | badNumber flaw => record "ParseIntError" [("kind", flaw.name)]
where
  record (kind : String) (fields : List (String × String)) : String :=
    kind ++ " \x7b " ++ ", ".intercalate (fields.map fun (name, value) => name ++ ": " ++ value) ++
      " \x7d"

end Failure

/-! ## Answers -/

/-- What files are read with. -/
structure Readers where
  /-- The scenario that a text describes, valid or not. -/
  scenario? : String → Option Scenario
  settings : Library

/-- The readers that the program runs with. -/
def Readers.standard : Readers := { scenario? := Scenario.ofText?, settings := .standard }

section

variable (readers : Readers) (w : Surroundings)

/-- The scenario in a file. -/
def load (path : String) : Except Failure Scenario :=
  match w.file? path with
  | none => .error .unreadable
  | some text =>
    match Scenario.parseWith readers.scenario? text with
    | .ok s => .ok s
    | .error .malformed => .error .malformed
    | .error (.flawed flaw) => .error (.flawed flaw)

/-- The scenario in the file that is named, if one is. -/
def loadNamed : Option String → Except Failure Scenario
  | some path => load readers w path
  | none => .error .missingPath

/-- A number that is given, or else a default. -/
def numberOr (default : Nat) : Option String → Except Failure Nat
  | none => .ok default
  | some text => (readNumber text.toList).mapError .badNumber

/-- The transcript of a scenario under its title, with a summary in the end. -/
def replayLines (s : Scenario) : Except Fault (Except Failure (List String)) :=
  s.replay.map fun
    | .error (.flawed flaw) => .error (.flawed flaw)
    | .error (.unmet unmet) => .error (.unmet unmet)
    | .ok t =>
      .ok (("scenario: " ++ s.title) :: t.lines ++
        [s!"ok: {t.entries.length} entries, clock {t.clock}ms"])

/-- The report of a soak. -/
def soakLines (s : Scenario) (seed operations : Nat) :
    Except Fault (Except Failure (List String)) :=
  (Soak.seeded s seed operations).map fun
    | .error (.flawed flaw) => .error (.flawed flaw)
    | .error (.violated operation violation) => .error (.violated seed operation violation)
    | .ok report => .ok [report.line seed]

/-- What a soak is made of. Numbers that are not given come from the settings. -/
def soakInput (path? seed? operations? : Option String) :
    Except Failure (Scenario × Nat × Nat) := do
  let s ← loadNamed readers w path?
  let settings := Settings.effective readers.settings w
  let seed ← numberOr settings.soak.seed seed?
  let operations ← numberOr settings.soak.operations operations?
  return (s, seed, operations)

/-- The session that a call opens. -/
def openSession (path? : Option String) : Except Failure Session := do
  let s ← path?.elim (.ok demo) (load readers w)
  let settings := Settings.effective readers.settings w
  let session ← (Session.new s settings.ui).mapError .flawed
  return { session with path := path?, clockRunning := settings.sim.autostart }

/-- The lines that a call prints, or why it fails. Without a terminal no session can be held. -/
def answer (arguments : List String) : Except Fault (Except Failure (List String)) :=
  match Call.ofArguments arguments with
  | .help => .ok (.ok usage)
  | .run path? =>
    match loadNamed readers w path? with
    | .ok s => replayLines s
    | .error failure => .ok (.error failure)
  | .soak path? seed? operations? =>
    match soakInput readers w path? seed? operations? with
    | .ok (s, seed, operations) => soakLines s seed operations
    | .error failure => .ok (.error failure)
  | .session path? =>
    match openSession readers w path? with
    | .ok _ => .ok (.error .noTerminal)
    | .error failure => .ok (.error failure)

end

/-! ## Exits -/

/-- How a call ends: its exit code, what it prints line by line, and what it reports as errors. -/
structure Exit where
  code : Nat
  printed : List String := []
  reported : List String := []
  deriving DecidableEq, Repr

namespace Exit

def ofAnswer : Except Failure (List String) → Exit
  | .ok lines => { code := 0, printed := lines }
  | .error failure => { code := 1, reported := ["Error: " ++ failure.text] }

end Exit

/-- How a call ends, if it does and no sum is too great for its word. -/
def exit (readers : Readers) (w : Surroundings) (arguments : List String) : Except Fault Exit :=
  (answer readers w arguments).map Exit.ofAnswer

end Playhead.CommandLine

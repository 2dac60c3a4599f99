import CallRouting.CommandLine.Page
import CallRouting.DialPlan.Load
import CallRouting.Log.Threshold

/-!
# Running commands

Running a command line comes to an exit code, what is printed, and lines for the error stream:
log records if logging was asked for, and the failure if there is one. A failure that no command
reports on its own ends the run; it is kept beside the lines. A log file that cannot be opened ends
the run before it begins.

The exit codes: 0 for success, 1 if a number fits no pattern or no route applies, 2 for words that
make no sense, malformed patterns and dial plans, 3 for a template that does not go with the
captures.
-/

namespace CallRouting.CommandLine

/-! ## Outcomes -/

/-- A line of the error stream. -/
inductive ErrorLine where
  | usage
  | record (r : LogRecord)
  | failure (code message : String)
  deriving Repr

/-- The JSON value that reports a failure. -/
def failureJson (code message : String) : Json :=
  .obj [("error", .obj [("code", .str code), ("message", .str message)])]

/-- A failure as it is written. -/
def failureLine (code message : String) : String := (failureJson code message).line .ascii

/-- A failure that ends the run without a report of its own. -/
inductive Uncaught where
  | level (e : LevelError)
  | load (e : LoadError)
  | call (e : CallError)
  deriving DecidableEq, Repr

/-- The sentence that reports the failure. -/
def Uncaught.message : Uncaught → String
  | .level e => e.message
  | .load e => e.message
  | .call e => e.message

/-- What running a command line comes to. -/
structure Outcome where
  exitCode : Nat
  output : String := ""
  errors : List ErrorLine := []
  /-- The file that the log records are written to as well. -/
  logFile : Option String := none
  uncaught : Option Uncaught := none
  deriving Repr

namespace Outcome

/-- The usage page, after words that make no sense. -/
def usage : Outcome := { exitCode := 2, errors := [.usage] }

/-- The usage page, asked for. -/
def help : Outcome := { exitCode := 0, errors := [.usage] }

/-- A failure that is reported. -/
def failed (exitCode : Nat) (code message : String) : Outcome :=
  { exitCode, errors := [.failure code message] }

/-- A failure that ends the run. -/
def stopped (e : Uncaught) : Outcome := { exitCode := 1, uncaught := some e }

/-- A result that is printed. -/
def printed (exitCode : Nat) (format : Format) (result : Json) : Outcome :=
  { exitCode, output := print format result }

/-- Puts the log records that are written in front of the lines for the error stream. -/
def withRecords (o : Outcome) (logging : Logging) (records : List LogRecord) : Outcome :=
  { o with
    errors := (logging.select records).map .record ++ o.errors
    logFile := logging.file }

end Outcome

/-! ## Commands -/

/-- What a run can draw on: the files, the standard input, and the identifier for a plan. -/
structure Surroundings where
  files : Files
  input : String
  planId : String

/-- A number given on the command line; a hyphen stands for the standard input without the white
space around it. -/
def readInput (s : Surroundings) (word : String) : String :=
  if word = "-" then Text.strip (String.ofList (Text.unifyLines s.input.toList)) else word

/-- The outcome when a call fails: commands report what concerns the pattern, the number and the
template; a search that goes too deep ends the run. -/
def callFailure (e : CallError) : Outcome :=
  match e with
  | .pattern _ => .failed 2 e.code e.message
  | .noFit .. => .failed 1 e.code e.message
  | .template _ => .failed 3 e.code e.message
  | .tooDeep => .stopped (.call e)

/-- Runs `fit`. -/
def runFit (pattern input : String) (format : Format) : StateM Exchange Outcome := do
  match ← (Exchange.fit? pattern input).run with
  | .error e => return callFailure e
  | .ok f =>
    return .printed (if f.isSome then 0 else 1) format (.obj
      [("pattern", .str pattern), ("input", .str input), ("matched", .bool f.isSome),
       ("groups", .ofStrings ((f.map (·.groups)).getD [])),
       ("rest", .ofString? (f.bind (·.rest)))])

/-- Runs `transform`. -/
def runTransform (input pattern template : String) (lenient : Bool) (format : Format) :
    StateM Exchange Outcome := do
  let settings := (← get).settings
  match ← (Exchange.transform (!lenient && settings.strictTemplates) input pattern template).run with
  | .error e => return callFailure e
  | .ok result =>
    return .printed 0 format (.obj
      [("input", .str input), ("pattern", .str pattern), ("result", .str result)])

/-- The outcome when a dial plan cannot be loaded: what concerns the rules is reported, the rest
ends the run. -/
def loadFailure (e : LoadError) : Outcome :=
  match e with
  | .unreadable .. | .notJson .. | .invalid _ => .failed 2 LoadError.code e.message
  | .pattern _ | .notText _ | .oversized _ | .tooDeep | .impossiblePath => .stopped (.load e)

/-- Loads a dial plan for a switch with the settings in force. -/
def loadPlan (s : Surroundings) (rules : String) :
    StateM Exchange (Except LoadError DialPlan) := do
  (DialPlan.load s.files (.setUp (← get).settings none none) rules).run

/-- Runs `route`. -/
def runRoute (s : Surroundings) (rules destination : String) (sender : Option String)
    (direction : Option Direction) (format : Format) : StateM Exchange Outcome := do
  match ← loadPlan s rules with
  | .error e => return loadFailure e
  | .ok dialPlan =>
    match ← (dialPlan.route destination sender direction).run with
    | .error (.template e) => return callFailure (.template e)
    | .error e => return .stopped (.call e)
    | .ok none => return .failed 1 "NO_ROUTE" s!"No route for destination {destination}"
    | .ok (some plan) => return .printed 0 format (.obj (plan.fields s.planId))

/-- Runs `check`. -/
def runCheck (s : Surroundings) (rules : String) (format : Format) : StateM Exchange Outcome := do
  match ← loadPlan s rules with
  | .error e => return loadFailure e
  | .ok dialPlan =>
    return .printed 0 format (.obj
      [("rules", .str rules), ("valid", .bool true), ("routes", .int dialPlan.routes.length)])

/-- Runs a command. -/
def Command.run (s : Surroundings) (format : Format) : Command → StateM Exchange Outcome
  | .fit pattern input => runFit pattern (readInput s input) format
  | .transform input pattern template lenient =>
    runTransform (readInput s input) pattern template lenient format
  | .route rules destination sender direction =>
    runRoute s rules destination sender direction format
  | .check rules => runCheck s rules format

/-! ## Command lines -/

/-- Runs the words behind the name of a command. -/
def runWords (s : Surroundings) (verb : Verb) (words : List String) : StateM Exchange Outcome :=
  match readCommand verb words with
  | .unclear => return .usage
  | .help => return .help
  | .done (command, format) => command.run s format

/-- Runs a command line whose log file, if it has one, is open. Logging is set up, if a level is
given, before the words behind the command are looked at. -/
def run (s : Surroundings) (env? : String → Option String) (words : List String) :
    StateM Exchange Outcome := do
  match readCall words with
  | .unclear => return .usage
  | .help => return .help
  | .done call =>
    match Logging.given? call.logLevel with
    | none => runWords s call.verb call.words
    | some level =>
      match Logging.setUp none (some level) env? with
      | .error e => return .stopped (.level e)
      | .ok logging => do
        let (outcome, records) ← Exchange.recording (runWords s call.verb call.words)
        return outcome.withRecords logging records

/-! ## With a log file -/

/-- Whether a command line gets as far as setting logging up. -/
def logs (words : List String) : Bool :=
  match readCall words with
  | .unclear | .help => false
  | .done call => (Logging.given? call.logLevel).isSome

/-- Opens the log file that the environment names, if there is one, and tells the files as they are
from then on. -/
def openLog (opening : Opening) (env? : String → Option String) (files : Files) :
    Except OpenFault Files :=
  match Logging.given? (env? "DIALPLAN_LOG_FILE") with
  | none => .ok files
  | some path => opening path

/-- Runs a command line as it is launched: if logging is asked for, the log file is opened before
anything else is done, the level looked at included. One that cannot be opened ends the run,
whatever the level is and before the command is looked at. -/
def launch (s : Surroundings) (opening : Opening) (env? : String → Option String)
    (words : List String) : StateM Exchange (Except OpenFault Outcome) := do
  match if logs words then openLog opening env? s.files else .ok s.files with
  | .error fault => return .error fault
  | .ok files => return .ok (← run { s with files } env? words)

end CallRouting.CommandLine

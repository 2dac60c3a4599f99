import CallRouting.CommandLine.Run
import CallRouting.Identifier
import CallRouting.Log.Instant
import Std.Time.DateTime.Timestamp

/-!
# The program

The command line program: it gathers what a run can draw on, runs the command line, and prints
what that comes to. Everything that is decided is decided in `CallRouting.CommandLine.Run`.
-/

open CallRouting

namespace CallRouting.Program

/-- The variables of the environment that the program looks at. -/
def variableNames : List String :=
  ["DIALPLAN_MAX_PATTERN_LENGTH", "DIALPLAN_MAX_QUANTIFIERS", "DIALPLAN_PATTERN_CACHE_SIZE",
   "DIALPLAN_TRANSFORM_STRICT", "DIALPLAN_DEFAULT_COUNTRY_CODE", "DIALPLAN_RULES_FILE",
   "DIALPLAN_LOG_LEVEL", "DIALPLAN_LOG_FILE"]

/-- The usage page. -/
def usagePage : String :=
  "Usage: dialplan [--log-level LEVEL] COMMAND ...\n\n" ++
  "Commands:\n" ++
  "  match PATTERN INPUT                Match a number against a pattern\n" ++
  "  transform INPUT PATTERN TEMPLATE   Write a matched number anew [--lenient]\n" ++
  "  route RULES DESTINATION            Route a number through a dial plan\n" ++
  "                                     [-s SENDER] [-d inbound|outbound]\n" ++
  "  check RULES                        Check a rules file\n\n" ++
  "Results are printed with --format json (the standard) or --format text."

/-- The values of the variables. -/
def environment : IO (String → Option String) := do
  let values ← variableNames.mapM fun name => return (name, ← IO.getEnv name)
  return fun name => (values.lookup name).join

/-- Why a file cannot be read. -/
def faultOf (e : IO.Error) : FileFault :=
  match e with
  | .noFileOrDirectory .. => .missing
  | .permissionDenied .. => .noPermission
  | .inappropriateType _ number _ => if number = 21 then .isDirectory else .notDirectory
  | e => .other 5 (toString e)

/-- Reads a file. -/
def readFile (path : String) : IO (Except FileFault (List UInt8)) := do
  try
    return .ok (← IO.FS.readBinFile path).toList
  catch e => return .error (faultOf e)

/-- Reads a stream to its end. -/
partial def readAll (stream : IO.FS.Stream) (before : ByteArray) : IO ByteArray := do
  let bytes ← stream.read 65536
  if bytes.isEmpty then return before else readAll stream (before ++ bytes)

/-- What a run of a command can draw on: the rules file and the standard input, if it asks for
them, and a new identifier. -/
def surroundings (command : Option CommandLine.Command) : IO CommandLine.Surroundings := do
  let content ←
    match command.bind (·.rules?) with
    | none => pure (.error .missing)
    | some rules => readFile (Path.plain rules)
  let input ←
    if command.any (·.readsInput) then readAll (← IO.getStdin) .empty else pure .empty
  let some text := String.fromUTF8? input | throw (IO.userError "the input is no text")
  return ⟨fun _ => content, text, Identifier.ofBytes (← IO.getRandomBytes 16).toList⟩

/-- Opens the log file for writing at its end, if one is named. -/
def openLog (env? : String → Option String) : IO (Except OpenFault Unit) := do
  match Logging.given? (env? "DIALPLAN_LOG_FILE") with
  | none => return .ok ()
  | some path =>
    try
      let _ ← IO.FS.Handle.mk path .append
      return .ok ()
    catch e => return .error ⟨path, faultOf e⟩

/-- The time. -/
def now : IO Instant := do
  let nanos := (← Std.Time.Timestamp.now).toNanosecondsSinceUnixEpoch.val.toNat
  return ⟨nanos / 1000000000, nanos / 1000 % 1000000⟩

/-- A line of the error stream. -/
def errorLine (time : String) : CommandLine.ErrorLine → String
  | .usage => usagePage
  | .record r => r.line time
  | .failure code message => CommandLine.failureLine code message

/-- The lines for the log file. -/
def logLines (time : String) (errors : List CommandLine.ErrorLine) : List String :=
  errors.filterMap fun
    | .record r => some (r.line time)
    | .usage | .failure .. => none

/-- Prints what a run came to. -/
def report (o : CommandLine.Outcome) : IO UInt32 := do
  let time := (← now).text
  if let some path := o.logFile then
    let file ← IO.FS.Handle.mk path .append
    (logLines time o.errors).forM file.putStrLn
  (← IO.getStdout).putStr o.output
  (o.errors.map (errorLine time)).forM fun line => IO.eprintln line
  if let some e := o.uncaught then IO.eprintln e.message
  return o.exitCode.toUInt32

end CallRouting.Program

/-- Runs the program. -/
def main (words : List String) : IO UInt32 := do
  let env? ← Program.environment
  match Settings.ofEnvironment env? with
  | .error fault =>
    IO.eprintln fault.message
    return 1
  | .ok settings =>
    -- the rules file is read only now, for it may be the file that was opened
    let opened ← if CommandLine.logs words then Program.openLog env? else pure (.ok ())
    let s ← Program.surroundings (CommandLine.commandOf? words)
    let opening : Opening := fun _ => opened.map fun _ => s.files
    match ((CommandLine.launch s opening env? words).run (.start settings)).1 with
    | .error fault =>
      IO.eprintln fault.message
      return 1
    | .ok outcome => Program.report outcome

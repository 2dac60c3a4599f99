import CallRouting.Log.Record
import CallRouting.Settings
import CallRouting.Text.Quoted

/-!
# Where log records go

Records are written from a level on, to the console and, if a file is named, to that file as well.
The level is named without regard to letter case. A name that is not known stands for INFO, with
two exceptions: two reserved names stand for something that is no level and are refused. Whether the
file can be opened is a matter of its own, and one that comes first.
-/

namespace CallRouting

/-! ## Level names -/

/-- What a name for a level can stand for. -/
def LogLevel.byName : List (String × LogLevel) :=
  [("CRITICAL", 50), ("FATAL", 50), ("ERROR", 40), ("WARNING", 30), ("WARN", 30), ("INFO", 20),
   ("DEBUG", 10), ("NOTSET", 0)]

/-- Why a name is refused as a level. -/
inductive LevelError where
  /-- The name stands for a text that names no level. -/
  | unknownText (text : String)
  /-- The name stands for neither a number nor a text. -/
  | notLevel (name : String)
  deriving DecidableEq, Repr

/-- The sentence that reports the refusal. -/
def LevelError.message : LevelError → String
  | .unknownText text => s!"Unknown level: {Text.quoted text}"
  | .notLevel name => s!"The name {Text.quoted name} stands for no level"

/-- The line format that the reserved name `BASIC_FORMAT` stands for. -/
def basicFormat : String := "%(levelname)s:%(name)s:%(message)s"

/-- The reserved name of the table of line formats. -/
def formatTable : String := "_STYLES"

/-- The level that a name stands for. -/
def LogLevel.ofName (name : String) : Except LevelError LogLevel :=
  let name := Text.capitals name
  match LogLevel.byName.lookup name with
  | some level => .ok level
  | none =>
    if name = "BASIC_FORMAT" then .error (.unknownText basicFormat)
    else if name = formatTable then .error (.notLevel formatTable)
    else .ok .info

/-- Letter case does not matter. -/
example : LogLevel.ofName "Warn" = .ok .warning := by rfl

/-- An unknown name stands for INFO. -/
example : LogLevel.ofName "chatty" = .ok .info := by rfl

/-! ## Logging -/

/-- From which level on records are written, and to which file besides the console. -/
structure Logging where
  level : LogLevel
  file : Option String
  deriving DecidableEq, Repr

namespace Logging

/-- The text itself unless it is empty or not there. -/
def given? (text : Option String) : Option String := text.filter (!·.isEmpty)

/-- Sets logging up. An argument that is empty or not there leaves the choice to the
environment. -/
def setUp (file level : Option String) (env? : String → Option String) :
    Except LevelError Logging := do
  let level ← LogLevel.ofName
    ((given? level).getD ((env? "DIALPLAN_LOG_LEVEL").getD "INFO"))
  return { level, file := given? ((given? file).or (env? "DIALPLAN_LOG_FILE")) }

/-- Whether a record is written: its level is above zero and high enough. -/
def accepts (l : Logging) (r : LogRecord) : Bool := 0 < r.level && l.level ≤ r.level

/-- The records that are written. -/
def select (l : Logging) (records : List LogRecord) : List LogRecord := records.filter l.accepts

end Logging

end CallRouting

import CallRouting.DialPlan.Basic
import CallRouting.File
import CallRouting.Json.Reader
import CallRouting.Text.Blank
import CallRouting.Text.Utf8

/-!
# Rules files

A dial plan is loaded from a file that holds a JSON document in UTF-8, with line ends of any kind.
The ways in which this can fail are told apart, for not all of them are reported alike: a file that
cannot be read, text that is not JSON and rules that are not in order are failures of the dial
plan; a pattern that fails when its template is checked, bytes that are no text, a whole number of
too many digits, arrays and objects too deep inside one another and a path that no file can have are
failures of their own.
-/

namespace CallRouting

/-- Why a dial plan cannot be loaded. -/
inductive LoadError where
  | unreadable (path : String) (fault : FileFault)
  | notJson (path : String) (cause : Json.Fault) (line column position : Nat)
  | invalid (findings : List Finding)
  | pattern (e : PatternError)
  | notText (fault : Text.Utf8.Fault)
  | oversized (digits : Nat)
  | tooDeep
  | impossiblePath
  deriving DecidableEq, Repr

/-- The code of failures of the dial plan. -/
def LoadError.code : String := "DIALPLAN_INVALID"

/-- The sentence that reports the failure; the findings of a document are reported one by one and
not in a sentence. -/
def LoadError.message : LoadError → String
  | .unreadable path fault => s!"Cannot read dial plan {path}: {fault.message path}"
  | .notJson path cause line column position =>
    s!"Dial plan {path} is not valid JSON: " ++
      (Json.ReadError.malformed cause line column position).message
  | .invalid findings => s!"Invalid dial plan: {(Json.arr (findings.map Finding.toJson)).line .unicode}"
  | .pattern e => e.message
  | .notText fault => fault.message
  | .oversized digits => (Json.ReadError.oversized digits).message
  | .tooDeep => Json.ReadError.tooDeep.message
  | .impossiblePath => "embedded null byte"

namespace DialPlan

/-- Reads the document in a file; `room` is how many arrays and objects may lie inside one
another. -/
def readDocument (room : Nat) (path : String) (content : Except FileFault (List UInt8)) :
    Except LoadError Json := do
  let bytes ← content.mapError (.unreadable path)
  let text ← (Text.Utf8.decode bytes).mapError .notText
  match Json.read room (String.ofList (Text.unifyLines text.toList)) with
  | .ok document => return document
  | .error (.malformed cause line column position) =>
    throw (.notJson path cause line column position)
  | .error (.oversized digits) => throw (.oversized digits)
  | .error .tooDeep => throw .tooDeep

/-- A dial plan was loaded. -/
def loaded (path : String) (count : Nat) : LogRecord :=
  { level := .info, logger, message := s!"Loaded dial plan {path} with {count} route(s)" }

/-- Loads the dial plan of a file. -/
def load (files : Files) (s : Switch) (path : String) : Work LoadError DialPlan := do
  if Path.isImpossible path then throw .impossiblePath
  let path := Path.plain path
  let room := (← Exchange.settingsNow).rooms.document
  let document ← (readDocument room path (files path) : Except LoadError Json)
  match ← (ofDocument s document).adapt LoadError.pattern with
  | .error findings => throw (.invalid findings)
  | .ok plan =>
    Exchange.note (loaded path plan.routes.length)
    return plan

end DialPlan

end CallRouting

import CallRouting.Json.Encoding
import CallRouting.Json.Reader
import CallRouting.Service.Ask

/-!
# Bodies of requests

The body of a request comes as bytes. They are read as text, the text as JSON, and the JSON value
as what the request asks for. What can be wrong on the way is told apart: nothing is there, the
bytes or the value in them cannot be read, the text is not JSON, or the value is in disorder.
-/

namespace CallRouting

/-- Why a body is refused. -/
inductive BodyFault where
  | absent
  /-- The bytes are no text, or hold a number or a nesting beyond all bounds. -/
  | unreadable
  /-- The text is not JSON from a position on. -/
  | notJson (position : Nat)
  /-- The value is in disorder. -/
  | invalid (value : Json) (findings : List Finding)
  deriving Repr

namespace BodyFault

/-- What a fault comes to as findings; none if it is not reported so. -/
def findings? : BodyFault → Option (List Finding)
  | .absent => some [⟨.missing, Ask.body⟩]
  | .unreadable => none
  | .notJson position => some [⟨.notJson, Ask.body ++ [.index position]⟩]
  | .invalid _ findings => some findings

/-- The values that the report of a fault quotes from the body: for each finding the value that it
is about. -/
def quoted : BodyFault → List Json
  | .absent | .unreadable | .notJson _ => []
  | .invalid value findings => findings.filterMap (·.subject? (.obj [(Ask.bodyName, value)]))

end BodyFault

namespace Ask

/-- The JSON value of a body; `room` is how many arrays and objects may lie inside one another. -/
def readValue (room : Nat) (body : List UInt8) : Except BodyFault Json :=
  if body.isEmpty then .error .absent
  else
    match Json.decode? body with
    | none => .error .unreadable
    | some text =>
      match Json.read room text with
      | .ok value => .ok value
      | .error (.malformed _ _ _ position) => .error (.notJson position)
      | .error (.oversized _) | .error .tooDeep => .error .unreadable

/-- Reads a body. -/
def readBody (room : Nat) (read : Json → Checked Ask) (body : List UInt8) :
    Except BodyFault Ask := do
  match ← readValue room body with
  | .obj fields => (read (.obj fields)).mapError (.invalid (.obj fields))
  | value => throw (.invalid value [⟨.notObject, Ask.body⟩])

end Ask

end CallRouting

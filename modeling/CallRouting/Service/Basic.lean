import CallRouting.DialPlan.Load
import CallRouting.Log.Threshold
import CallRouting.Service.Body
import CallRouting.Service.Location
import CallRouting.Text.LetterCase

/-!
# The service

The service answers requests over HTTP: whether a number fits a pattern, how it is written anew,
and where the dial plan leads it. The dial plan is loaded when the service starts; a rules file
that cannot be loaded keeps it from starting, and without a rules file there is no dial plan.

What is wrong with a request is answered with the values that it is about, and some values cannot
be written. Then there is no response: the request breaks down. So it does if there is no room for
the search for a number. What the service leaves without a response the server around it answers
with status 500; that server is not described here.
-/

namespace CallRouting

/-! ## Requests and responses -/

/-- A request. -/
structure Request where
  method : String
  address : String
  /-- The body, empty if there is none. -/
  body : List UInt8
  deriving DecidableEq, Repr

/-- A response. -/
structure Response where
  status : Nat
  body : Json
  deriving Repr

/-- Why the service gives no response to a request. -/
inductive Breakdown where
  /-- The request goes nowhere, for its address is none. -/
  | noAddress
  /-- The response would quote a number that is not finite; the server answers 500. -/
  | unwritable
  /-- The search for a number goes deeper than there is room; the server answers 500. -/
  | tooDeep
  deriving DecidableEq, Repr

/-- The sentence that reports why there is no response. -/
def Breakdown.message : Breakdown → String
  | .noAddress => "The address of the request is malformed"
  | .unwritable => "Out of range float values are not JSON compliant"
  | .tooDeep => CallError.tooDeep.message

/-- What responding comes to. -/
abbrev Responding := Except Breakdown Response

namespace Response

/-- A response that tells what was wrong with the request itself. -/
def detail (status : Nat) (detail : Json) : Response := ⟨status, .obj [("detail", detail)]⟩

/-- A response that reports a failure. -/
def failure (status : Nat) (code message : String) : Response :=
  ⟨status, .obj [("code", .str code), ("message", .str message)]⟩

/-- The report of a call that failed. A search that there is no room for has no report: it is left
to the server, which answers 500. -/
def ofCallError (e : CallError) : Responding :=
  match e with
  | .pattern _ => .ok (.failure 400 e.code e.message)
  | .noFit .. | .template _ => .ok (.failure 422 e.code e.message)
  | .tooDeep => .error .tooDeep

/-- The report of a body that is refused. -/
def ofBodyFault (fault : BodyFault) : Responding :=
  match fault.findings? with
  | none => .ok (.detail 400 (.str "There was an error parsing the body"))
  | some findings =>
    if fault.quoted.all Json.isFinite then
      .ok (.detail 422 (.arr (findings.map Finding.toJson)))
    else .error .unwritable

end Response

/-! ## The service -/

/-- The service: its dial plan, if it has one. -/
structure Service where
  dialPlan : Option DialPlan
  deriving DecidableEq, Repr

/-- Why the service cannot start. -/
inductive StartError where
  /-- Nothing can be told about the rules file. -/
  | rules (fault : Settings.RulesFault)
  | load (e : LoadError)
  deriving DecidableEq, Repr

namespace Service

/-- The logger of the service. -/
def logger : String := "dialplan"

/-- A warning at the start. -/
def warned (message : String) : LogRecord := { level := .warning, logger, message }

/-- Starts the service: tells the issues of the settings and loads the dial plan. -/
def start (files : Files) : Work StartError Service := do
  let settings ← Exchange.settingsNow
  let issues ← (settings.issues files).mapError StartError.rules
  issues.forM fun issue => Exchange.note (warned s!"config issue: {issue.message}")
  if settings.rulesFile.isEmpty then
    Exchange.note (warned "DIALPLAN_RULES_FILE not set; /route is unavailable")
    return ⟨none⟩
  else
    let plan ←
      (DialPlan.load files (.setUp settings none none) settings.rulesFile).adapt StartError.load
    return ⟨some plan⟩

/-- A plan as the service answers it. -/
def planJson (p : Plan) (id : String) : Json :=
  .obj ([("id", .str id), ("direction", .str p.direction.name)] ++ p.commonFields)

/-- Answers what a request asks for; `planId` is the identifier for a plan. -/
def answer (s : Service) (planId : String) : Ask → StateM Exchange Responding
  | .fit pattern input => do
    match ← (Exchange.fit? pattern input).run with
    | .error e => return Response.ofCallError e
    | .ok f =>
      return .ok ⟨200, .obj [("matched", .bool f.isSome),
        ("groups", .ofStrings ((f.map (·.groups)).getD [])),
        ("rest", .ofString? (f.bind (·.rest)))]⟩
  | .transform input pattern template strict => do
    let strict := strict.getD (← get).settings.strictTemplates
    match ← (Exchange.transform strict input pattern template).run with
    | .error e => return Response.ofCallError e
    | .ok result => return .ok ⟨200, .obj [("result", .str result)]⟩
  | .route destination sender direction => do
    match s.dialPlan with
    | none => return .ok (.failure 503 "DIALPLAN_UNAVAILABLE" "No dial plan is configured")
    | some plan =>
      match ← (plan.route destination sender direction).run with
      | .error e => return Response.ofCallError e
      | .ok none =>
        return .ok (.failure 404 "NO_ROUTE" s!"No route for destination {destination}")
      | .ok (some p) => return .ok ⟨200, planJson p planId⟩

/-- What a path leads to: the health of the service, or a reader of bodies. -/
inductive Target where
  | health
  | post (read : Json → Checked Ask)

/-- The target of a path. -/
def target? (path : String) : Option Target :=
  if path = "/healthz" then some .health
  else if path = "/match" then some (.post Ask.readFit)
  else if path = "/transform" then some (.post Ask.readTransform)
  else if path = "/route" then some (.post Ask.readRoute)
  else none

/-- The response to a method that a path does not take. -/
def wrongMethod : Response := .detail 405 (.str "Method Not Allowed")

/-- Responds to a request. A search that there is no room for breaks the request down; the 500 that
the server then answers with is no response of the service. -/
def respond (s : Service) (planId : String) (r : Request) : StateM Exchange Responding :=
  let method := Text.capitals r.method
  match Location.path? r.address with
  | none => return .error .noAddress
  | some path =>
    match target? path with
    | none => return .ok (.detail 404 (.str "Not Found"))
    | some .health =>
      return .ok (if method = "GET" then ⟨200, .obj [("ok", .bool true)]⟩ else wrongMethod)
    | some (.post read) =>
      if method = "POST" then do
        match Ask.readBody (← get).settings.rooms.body read r.body with
        | .error fault => return Response.ofBodyFault fault
        | .ok ask => s.answer planId ask
      else return .ok wrongMethod

end Service

end CallRouting

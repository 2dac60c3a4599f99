import CallRouting.Exchange
import CallRouting.Finding
import CallRouting.Route
import CallRouting.RoutePattern

/-!
# Rules

A rule is a route as a rules file describes it. A rule is checked when it is read: its patterns
have to be patterns, and a template has to go with the pattern of its rule as far as that can be
told before any number is known. Each capture group whose length is fixed has to be as long as
its run, unless templates are not strict, and there may be no more runs than groups.
-/

namespace CallRouting

/-- A rule of a rules file. -/
structure Rule where
  id : String
  organizationId : String
  direction : Direction
  protocol : String
  location : String
  senderAddress : String
  receiverAddress : String
  template : Option String
  deriving DecidableEq, Repr

/-! ## Templates of rules -/

/-- Why the template of a rule is refused. -/
inductive RuleFault where
  | inbound
  | openPattern
  | tooManyRuns (groupCount : Nat) (source : String)
  | runLength (index run : Nat) (source : String) (length : Nat)
  deriving DecidableEq, Repr

/-- The sentence that reports the refusal. -/
def RuleFault.message : RuleFault → String
  | .inbound => "transform is only supported on outbound routes"
  | .openPattern => "transform requires a telco expression receiver_address"
  | .tooManyRuns groupCount source =>
    s!"transform references more than the {groupCount} capture group(s) of {Text.quoted source}"
  | .runLength index run source length =>
    s!"transform $-run {index} has length {run} but capture group {index} of " ++
      s!"{Text.quoted source} is {length} character(s)"

/-- The first run that cannot be as long as its group, with its index and the two lengths;
`index` is the index of the first run. -/
def misfit? : (index : Nat) → (runs : List Nat) → (lengths : List (Option Nat)) →
    Option (Nat × Nat × Nat)
  | index, run :: runs, some length :: lengths =>
    if run = length then misfit? (index + 1) runs lengths else some (index, run, length)
  | index, _ :: runs, none :: lengths => misfit? (index + 1) runs lengths
  | _, _, _ => none

/-- Checks a template against the pattern of its rule. -/
def checkRuns (strict : Bool) (p : Pattern) (template : String) : Except RuleFault Unit :=
  let runs := placeholderRuns template
  if p.groupCount < runs.length then .error (.tooManyRuns p.groupCount p.source)
  else if strict then
    match misfit? 0 runs p.groupLengths with
    | some (index, run, length) => .error (.runLength index run p.source length)
    | none => .ok ()
  else .ok ()

namespace Rule

/-- Checks the template of a rule, if it has one. The pattern of the rule is asked for once more;
that it is malformed now is no fault of the rule but a failure of the check. -/
def checkTemplate (r : Rule) : Work PatternError (Except RuleFault Unit) := do
  match r.template with
  | none => return .ok ()
  | some template =>
    if r.direction ≠ .outbound then return .error .inbound
    else if RoutePattern.isOpen r.receiverAddress then return .error .openPattern
    else
      let p ← Exchange.ask r.receiverAddress
      return checkRuns (← Exchange.settingsNow).strictTemplates p template

/-! ## Reading rules -/

/-- Checks that a text is a pattern of routes. -/
def checkPattern (place : List PathStep) (source : String) : StateM Exchange (Checked String) := do
  if RoutePattern.isOpen source then return .ok source
  else
    match ← (Exchange.ask source).run with
    | .ok _ => return .ok source
    | .error e => return Checked.flaw (.refused e.message) place

/-- A pattern in a field of a record; `standard` stands for a field that is not there. -/
def patternAt (record : Json) (place : List PathStep) (name : String)
    (standard : Checked String) : StateM Exchange (Checked String) :=
  match record.field? name with
  | some (.str s) => checkPattern (place ++ [.field name]) s
  | _ => return fieldAt record place name standard textAt

/-- A direction. -/
def directionAt (place : List PathStep) : Json → Checked Direction
  | .str s =>
    match Direction.ofName? s with
    | some d => .ok d
    | none => Checked.flaw .notDirection place
  | _ => Checked.flaw .notDirection place

/-- The fields of a rule, given what was found in its two pattern fields. -/
def fieldsAt (record : Json) (place : List PathStep) (sender receiver : Checked String) :
    Checked Rule :=
  (.ok Rule.mk : Checked _)
    |> (Checked.apply · (requiredAt record place "id" textAt))
    |> (Checked.apply · (fieldAt record place "organization_id" (.ok "") textAt))
    |> (Checked.apply · (fieldAt record place "direction" (.ok .inbound) directionAt))
    |> (Checked.apply · (fieldAt record place "protocol" (.ok "SIP") textAt))
    |> (Checked.apply · (fieldAt record place "location" (.ok "") textAt))
    |> (Checked.apply · sender)
    |> (Checked.apply · receiver)
    |> (Checked.apply · (fieldAt record place "transform" (.ok none) optionalTextAt))

/-- Checks the template of a rule whose fields are in order. -/
def accept (place : List PathStep) : Checked Rule → Work PatternError (Checked Rule)
  | .error findings => return .error findings
  | .ok r => do
    match ← r.checkTemplate with
    | .ok () => return .ok r
    | .error fault => return Checked.flaw (.refused fault.message) place

/-- Reads a rule that lies at a place of a document. The template is looked at only if all fields
are in order. -/
def ofJson (place : List PathStep) (record : Json) : Work PatternError (Checked Rule) := do
  match record with
  | .obj _ =>
    let sender ← (patternAt record place "sender_address" (.ok "*") : StateM Exchange _)
    let receiver ← (patternAt record place "receiver_address"
      (Checked.flaw .missing (place ++ [.field "receiver_address"])) : StateM Exchange _)
    accept place (fieldsAt record place sender receiver)
  | _ => return Checked.flaw (.notRecord "RouteRule") place

/-- The route that a rule describes. -/
def toRoute (r : Rule) : Route :=
  { id := r.id
    organizationId := r.organizationId
    protocol := r.protocol
    location := r.location
    senderAddress := r.senderAddress
    receiverAddress := r.receiverAddress
    leg :=
      match r.direction with
      | .outbound =>
        .outbound { matchedPattern := r.receiverAddress, template := r.template } none
      | .inbound => .inbound { matchedEndpoint := r.location } none }

/-- A rule and its route have the same direction. -/
theorem direction_toRoute (r : Rule) : r.toRoute.direction = r.direction := by
  simp only [toRoute, Route.direction]
  cases r.direction <;> rfl

end Rule

end CallRouting

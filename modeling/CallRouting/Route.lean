/-!
# Routes

A route as the dial plan has it: which numbers it is for, who may use it, and where it leads. An
inbound route leads to an endpoint, an outbound one away from the switch, and a call's own route
also carries the numbers of the call.
-/

namespace CallRouting

/-- The direction of a route as seen from the switch. -/
inductive Direction where
  | inbound
  | outbound
  deriving DecidableEq, Repr

namespace Direction

/-- The name of a direction. -/
def name : Direction → String
  | inbound => "inbound"
  | outbound => "outbound"

/-- The direction with a name. -/
def ofName? (name : String) : Option Direction :=
  if name = "inbound" then some .inbound
  else if name = "outbound" then some .outbound
  else none

/-- A direction is found by its name. -/
@[simp] theorem ofName?_name (d : Direction) : ofName? d.name = some d := by
  cases d <;> rfl

end Direction

/-! ## Legs -/

/-- The inbound part of a route. -/
structure InboundLeg where
  normalizedAddress : String := ""
  /-- The endpoint that takes the call; the route's own address if empty. -/
  matchedEndpoint : String := ""
  deriving DecidableEq, Repr, Inhabited

/-- The numbers of an inbound call. -/
structure InboundCall where
  callerId : String := ""
  calledNumber : String := ""
  dialledService : Option String := none
  deriving DecidableEq, Repr, Inhabited

/-- The outbound part of a route. -/
structure OutboundLeg where
  /-- The pattern that counts instead of the route's own address, unless it is empty. -/
  matchedPattern : String := ""
  /-- How the number is written before it leaves the switch. -/
  template : Option String := none
  deriving DecidableEq, Repr, Inhabited

/-- The numbers of an outbound call, and a pattern that counts before all others. -/
structure OutboundCall where
  numberPattern : Option String := none
  callerId : String := ""
  destinationNumber : String := ""
  deriving DecidableEq, Repr, Inhabited

/-- What a route has besides the fields of every route. -/
inductive Leg where
  | plain
  | inbound (leg : InboundLeg) (call : Option InboundCall)
  | outbound (leg : OutboundLeg) (call : Option OutboundCall)
  deriving DecidableEq, Repr, Inhabited

/-! ## Routes -/

/-- A route. -/
structure Route where
  id : String
  organizationId : String := ""
  protocol : String := ""
  location : String := ""
  senderAddress : String := ""
  receiverAddress : String := ""
  leg : Leg := .plain
  deriving DecidableEq, Repr, Inhabited

/-- The text unless it is empty, else another one. -/
def nonEmptyOr (text other : String) : String := if text.isEmpty then other else text

namespace Route

/-- The direction of a route; a plain route counts as inbound. -/
def direction (r : Route) : Direction :=
  match r.leg with
  | .plain | .inbound .. => .inbound
  | .outbound .. => .outbound

/-- The pattern that a number has to fit for the route to apply. -/
def pattern (r : Route) : String :=
  match r.leg with
  | .plain | .inbound .. => r.receiverAddress
  | .outbound leg call =>
    nonEmptyOr ((call.bind (·.numberPattern)).getD "")
      (nonEmptyOr leg.matchedPattern r.receiverAddress)

/-- The endpoint that a route leads to. -/
def endpoint (r : Route) : String :=
  match r.leg with
  | .inbound leg _ => nonEmptyOr leg.matchedEndpoint r.receiverAddress
  | .plain | .outbound .. => r.receiverAddress

/-- The template of an outbound route, unless it is empty. -/
def template? (r : Route) : Option String :=
  match r.leg with
  | .outbound leg _ => leg.template.filter (!·.isEmpty)
  | .plain | .inbound .. => none

end Route

end CallRouting

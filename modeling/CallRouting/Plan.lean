import CallRouting.CallClass
import CallRouting.Json.Basic
import CallRouting.Route

/-!
# Plans

A plan is what routing decides for a number: how the call is classed, whether its sender may use
the route, and where the call goes under which number. A plan gets its identifier when it is
handed out; it is no part of the decision.
-/

namespace CallRouting

/-- What an inbound plan tells of the call it was made for. -/
structure InboundCallInfo where
  callerId : String
  calledNumber : String
  assignedEndpoint : String
  deriving DecidableEq, Repr, Inhabited

/-- What an outbound plan tells of the call it was made for. -/
structure OutboundCallInfo where
  callerId : String
  destination : String
  assignedEndpoint : Option String
  deriving DecidableEq, Repr, Inhabited

/-- What a plan has besides the fields of every plan. -/
inductive PlanLeg where
  | inbound (matchedEndpoint : String) (call : Option InboundCallInfo)
  | outbound (matchedPattern : String) (call : Option OutboundCallInfo)
  deriving DecidableEq, Repr, Inhabited

/-- A plan. -/
structure Plan where
  classification : CallClass
  isAuthorized : Bool
  /-- The endpoint that takes the call. -/
  endpoint : String
  /-- The number as the endpoint is to see it. -/
  address : String
  /-- The host the call goes to. -/
  host : String
  leg : PlanLeg
  deriving DecidableEq, Repr

namespace Plan

/-- The direction of a plan. -/
def direction (p : Plan) : Direction :=
  match p.leg with
  | .inbound .. => .inbound
  | .outbound .. => .outbound

/-! ## Written form -/

/-- A class with its two names. -/
def classFields (c : CallClass) : Json := .obj [("name", .str c.name), ("code", .str c.code)]

/-- The fields of every plan, after the identifier and what may follow it. -/
def commonFields (p : Plan) : List (String × Json) :=
  [("classification", classFields p.classification), ("is_authorized", .bool p.isAuthorized),
   ("destination_endpoint", .str p.endpoint), ("transformed_address", .str p.address),
   ("destination_host", .str p.host)]

/-- The fields that a plan has on account of its leg. -/
def legFields : PlanLeg → List (String × Json)
  | .inbound matchedEndpoint call =>
    [("matched_endpoint", .str matchedEndpoint), ("transformed_endpoint", .null)] ++
      match call with
      | none => []
      | some c =>
        [("normalized_caller_id", .str c.callerId),
         ("normalized_called_number", .str c.calledNumber),
         ("assigned_endpoint", .str c.assignedEndpoint)]
  | .outbound matchedPattern call =>
    [("matched_pattern", .str matchedPattern)] ++
      match call with
      | none => []
      | some c =>
        [("normalized_caller_id", .str c.callerId), ("normalized_destination", .str c.destination),
         ("assigned_endpoint", Json.ofString? c.assignedEndpoint)]

/-- All fields of a plan that is handed out under an identifier. -/
def fields (p : Plan) (id : String) : List (String × Json) :=
  [("id", .str id)] ++ p.commonFields ++ legFields p.leg

end Plan

end CallRouting

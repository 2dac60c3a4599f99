import CallRouting.Exchange
import CallRouting.Json.Literal
import CallRouting.Plan
import CallRouting.RoutePattern

/-!
# The switch

A switch decides whether a route applies to a number and, if it does, makes the plan: the number
is brought into its normal form and matched against the route's pattern, the call is classed, the
sender is checked against the route's sender pattern, and an outbound route may write the number
anew. The country code and the strictness of templates are fixed when the switch is set up.
-/

namespace CallRouting

/-- A switch: the country code of its national numbers, and whether runs in templates have to be
as long as their groups. -/
structure Switch where
  countryCode : String
  strict : Bool
  deriving DecidableEq, Repr

namespace Switch

/-- Sets a switch up; what is not given is taken from the settings. -/
def setUp (settings : Settings) (countryCode : Option String) (strict : Option Bool) : Switch :=
  ⟨nonEmptyOr (countryCode.getD "") settings.countryCode, strict.getD settings.strictTemplates⟩

/-! ## Numbers -/

/-- The normal form of a number. A switch without a country code uses the one in the settings. -/
def normalize (s : Switch) (settings : Settings) (number : String) : String :=
  Number.normalize (nonEmptyOr s.countryCode settings.countryCode) number

/-- A switch with a country code does not look at the settings. -/
theorem normalize_eq_of_ne (s : Switch) (settings : Settings) (number : String)
    (h : s.countryCode.isEmpty = false) :
    s.normalize settings number = Number.normalize s.countryCode number := by
  simp [normalize, nonEmptyOr, h]

/-- The class of a number. -/
def classify (s : Switch) (number pattern : String) : CallClass :=
  .ofNumber s.countryCode number pattern

/-! ## Patterns of routes -/

/-- Whether digits are among the numbers that a route's pattern stands for. -/
def accepts (pattern digits : String) : Work CallError Bool :=
  match RoutePattern.ofString pattern with
  | .all => return true
  | .stem ds => return ds.isPrefixOf digits.toList
  | .pattern source => Exchange.fits source digits

/-- Whether a sender may use a route. A route without a sender pattern is open to all, any other
one only to senders that are known. -/
def authorizes (s : Switch) (senderPattern : String) (sender : Option String) :
    Work CallError Bool := do
  if senderPattern.isEmpty || senderPattern = "*" then return true
  else
    let sender := sender.getD ""
    if sender.isEmpty then return false
    else
      let settings ← Exchange.settingsNow
      accepts senderPattern (Number.digits (s.normalize settings sender))

/-! ## Log records -/

/-- The logger of routing decisions. -/
def logger : String := "dialplan.routing.engine"

/-- A route does not apply. -/
def skipped (r : Route) (number : String) : LogRecord :=
  { level := .debug, logger
    message := s!"Route {r.id} does not match destination {number}"
    context := { routeId := .str r.id, pattern := .str r.pattern, destination := .str number } }

/-- A template is of no use. -/
def templateIgnored (r : Route) : LogRecord :=
  { level := .warning, logger
    message := s!"Route {r.id} has a transform but wildcard pattern {Text.quoted r.pattern}; " ++
      "transform ignored"
    context := { routeId := .str r.id, pattern := .str r.pattern } }

/-- A route applies. -/
def taken (r : Route) (number : String) (c : CallClass) (authorized : Bool) : LogRecord :=
  { level := .info, logger
    message := s!"Route {r.id} matched {number} classification={c.code} " ++
      s!"authorized={(Json.bool authorized).literal}"
    context :=
      { routeId := .str r.id, pattern := .str r.pattern, destination := .str number
        classification := .str c.code } }

/-! ## Routing -/

/-- The number as the endpoint of a route is to see it. -/
def address (s : Switch) (r : Route) (normal : String) : Work CallError String :=
  match r.template? with
  | none => return normal
  | some template =>
    if RoutePattern.isOpen r.pattern then do
      Exchange.note (templateIgnored r)
      return normal
    else Exchange.transform s.strict (Number.digits normal) r.pattern template

/-- The leg of a plan that is made for a route. -/
def planLeg (r : Route) : PlanLeg :=
  match r.direction with
  | .inbound => .inbound r.endpoint none
  | .outbound => .outbound r.pattern none

/-- The plan of a route for a number; none if the route does not apply to it. -/
def route (s : Switch) (r : Route) (destination : String) (sender : Option String) :
    Work CallError (Option Plan) := do
  let settings ← Exchange.settingsNow
  let normal := s.normalize settings destination
  if !(← accepts r.pattern (Number.digits normal)) then
    Exchange.note (skipped r normal)
    return none
  let classification := s.classify normal r.pattern
  let isAuthorized ← s.authorizes r.senderAddress sender
  let address ← s.address r normal
  Exchange.note (taken r normal classification isAuthorized)
  return some
    { classification, isAuthorized, endpoint := r.endpoint, address, host := r.location
      leg := planLeg r }

/-- The number that a call's own route is for, and the number it comes from. -/
def callNumbers (r : Route) : String × String :=
  match r.leg with
  | .inbound _ (some c) => (c.calledNumber, c.callerId)
  | .outbound _ (some c) => (c.destinationNumber, c.callerId)
  | .plain | .inbound _ none | .outbound _ none => ("", "")

/-- Adds to a plan what is known of the call. -/
def completeLeg (r : Route) (destination caller : String) : PlanLeg → PlanLeg
  | .inbound matchedEndpoint _ =>
    .inbound matchedEndpoint
      (some ⟨caller, destination, nonEmptyOr r.location matchedEndpoint⟩)
  | .outbound matchedPattern _ =>
    .outbound matchedPattern
      (some ⟨caller, destination, if r.location.isEmpty then none else some r.location⟩)

/-- The plan of a call's own route for the numbers that the call carries. -/
def routeCall (s : Switch) (r : Route) : Work CallError (Option Plan) := do
  let (destination, caller) := callNumbers r
  match ← s.route r destination (some caller) with
  | none => return none
  | some plan =>
    let settings ← Exchange.settingsNow
    let normal := s.normalize settings
    return some { plan with leg := completeLeg r (normal destination) (normal caller) plan.leg }

end Switch

end CallRouting

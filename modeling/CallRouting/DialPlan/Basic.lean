import CallRouting.DialPlan.Rule
import CallRouting.Switch

/-!
# Dial plans

A dial plan is a list of routes and the switch that works with them. For a number, the first route
that applies makes the plan; the routes after it are not looked at. A caller may ask for routes of
one direction only.
-/

namespace CallRouting

/-- A dial plan. -/
structure DialPlan where
  routes : List Route
  switch : Switch
  deriving DecidableEq, Repr

namespace DialPlan

/-! ## Documents -/

/-- Reads the rules of a list; `index` is the index of the first of them. -/
def rulesFrom (index : Nat) : List Json → Work PatternError (Checked (List Rule))
  | [] => return .ok []
  | item :: rest => do
    let rule ← Rule.ofJson [.field "routes", .index index] item
    let rules ← rulesFrom (index + 1) rest
    return Checked.cons rule rules

/-- The rules of a document. -/
def rulesOf (document : Json) : Work PatternError (Checked (List Rule)) :=
  match document with
  | .obj _ =>
    match document.field? "routes" with
    | none => return .ok []
    | some (.arr items) => rulesFrom 0 items
    | some _ => return Checked.flaw .notList [.field "routes"]
  | _ => return Checked.flaw (.notRecord "DialPlanDocument") []

/-- The dial plan of a document. -/
def ofDocument (s : Switch) (document : Json) : Work PatternError (Checked DialPlan) := do
  return (fun rules => ⟨rules.map Rule.toRoute, s⟩) <$> (← rulesOf document)

/-! ## Routing -/

/-- The logger of dial plans. -/
def logger : String := "dialplan.routing.rules"

/-- No route applies to a number. -/
def unrouted (destination : String) : LogRecord :=
  { level := .info, logger, message := s!"No route for destination {destination}" }

/-- The plan of the first route that applies. -/
def firstPlan (s : Switch) (destination : String) (sender : Option String) :
    List Route → Work CallError (Option Plan)
  | [] => do
    Exchange.note (unrouted destination)
    return none
  | r :: rest => do
    match ← s.route r destination sender with
    | some plan => return some plan
    | none => firstPlan s destination sender rest

/-- The routes of one direction, or all of them. -/
def candidates (p : DialPlan) (direction : Option Direction) : List Route :=
  match direction with
  | none => p.routes
  | some d => p.routes.filter (·.direction = d)

/-- The plan for a number. -/
def route (p : DialPlan) (destination : String) (sender : Option String)
    (direction : Option Direction) : Work CallError (Option Plan) :=
  firstPlan p.switch destination sender (p.candidates direction)

end DialPlan

end CallRouting

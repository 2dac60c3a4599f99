import CallRouting.DialPlan.Basic
import CallRouting.Proofs.Session

/-!
# Routing is a decision

Whatever was asked before, routing a number gives the answer that the settings determine. Each
function of the switch and of the dial plan is a question (`Neutral`), and its decision is put
together from the decisions of its parts.
-/

namespace CallRouting

open Exchange (decision decision_bind Neutral fitTo)

/-! ## Numbers and patterns -/

namespace Exchange

variable (settings : Settings) (source number template : String) (strict : Bool)

instance : Neutral (pattern source) := inferInstanceAs (Neutral (ExceptT.adapt _ (ask source)))

/-- A pattern that is asked for is read under the limits in force. -/
theorem decision_pattern :
    decision settings (pattern source) =
      (Pattern.parse settings.limits source).mapError .pattern := by
  rw [pattern, decision_adapt, decision_ask]

instance (p : Pattern) : Neutral (fitNow p number) :=
  inferInstanceAs (Neutral (settingsNow >>= fun s => liftM (fitTo p number s.limits.room)))

/-- The room for a search is that of the settings. -/
theorem decision_fitNow (p : Pattern) :
    decision settings (fitNow p number) = fitTo p number settings.limits.room := by
  simp only [fitNow, decision_bind, decision_settingsNow, ok_bind, decision_lift]

instance : Neutral (fit? source number) :=
  inferInstanceAs (Neutral (pattern source >>= fun p => fitNow p number))

/-- Fitting a number reads the pattern and searches. -/
theorem decision_fit? :
    decision settings (fit? source number) =
      decision settings (pattern source) >>= fun p => fitTo p number settings.limits.room := by
  simp only [fit?, decision_bind, decision_fitNow]

instance : Neutral (fits source number) :=
  inferInstanceAs (Neutral (fit? source number >>= fun answer => pure answer.isSome))

/-- Whether a number fits is whether the search answers with a fit. -/
theorem decision_fits :
    decision settings (fits source number) =
      decision settings (fit? source number) >>= fun answer => .ok answer.isSome := by
  simp only [fits, decision_bind, decision_pure]

/-- How an answer of the search is written anew. -/
def rendered (p : Pattern) : Option Pattern.Fit → Except CallError String
  | none => .error (.noFit number source)
  | some f => (render strict f.groups f.rest (some p.hasRest) template).mapError .template

/-- Once there is an answer of the search, nothing more is asked for. -/
theorem transform_eq :
    transform strict number source template =
      pattern source >>= fun p => fitNow p number >>= fun answer =>
        liftM (rendered source number template strict p answer) := by
  unfold transform
  congr
  funext p
  congr
  funext answer
  cases answer with
  | none => rfl
  | some f =>
    simp only [rendered]
    cases render strict f.groups f.rest (some p.hasRest) template <;> rfl

instance : Neutral (transform strict number source template) := by
  rw [transform_eq]
  infer_instance

/-- Writing a number anew reads the pattern, searches and renders. -/
theorem decision_transform :
    decision settings (transform strict number source template) =
      decision settings (pattern source) >>= fun p =>
        fitTo p number settings.limits.room >>= rendered source number template strict p := by
  simp only [transform_eq, decision_bind, decision_fitNow, decision_lift]

end Exchange

namespace Switch

variable (settings : Settings) (s : Switch) (r : Route)

instance (pattern digits : String) : Neutral (accepts pattern digits) := by
  unfold accepts
  split <;> infer_instance

instance (senderPattern : String) (sender : Option String) :
    Neutral (s.authorizes senderPattern sender) := by
  unfold authorizes
  infer_instance

instance (normal : String) : Neutral (s.address r normal) := by
  unfold address
  split <;> infer_instance

instance (destination : String) (sender : Option String) :
    Neutral (s.route r destination sender) := by
  unfold route
  infer_instance

/-- A route asks whether it accepts the number, whether the sender may use it and how the number is
written, in this order. -/
theorem decision_route (destination : String) (sender : Option String) :
    decision settings (s.route r destination sender) =
      decision settings
          (accepts r.pattern (Number.digits (s.normalize settings destination))) >>= fun applies =>
        if applies then
          decision settings (s.authorizes r.senderAddress sender) >>= fun isAuthorized =>
          decision settings (s.address r (s.normalize settings destination)) >>= fun address =>
          .ok (some
            { classification := s.classify (s.normalize settings destination) r.pattern
              isAuthorized, endpoint := r.endpoint, address, host := r.location
              leg := planLeg r })
        else .ok none := by
  unfold route
  simp only [decision_bind, Exchange.decision_settingsNow, Exchange.decision_ite,
    Exchange.decision_note, Exchange.decision_pure, Exchange.ok_bind]
  cases decision settings
      (accepts r.pattern (Number.digits (s.normalize settings destination))) with
  | error e => rfl
  | ok applies => cases applies <;> rfl

/-- Whether digits are accepted, by the kind of the pattern. -/
theorem decision_accepts (pattern digits : String) :
    decision settings (accepts pattern digits) =
      match RoutePattern.ofString pattern with
      | .all => .ok true
      | .stem ds => .ok (ds.isPrefixOf digits.toList)
      | .pattern source => decision settings (Exchange.fits source digits) := by
  unfold accepts
  cases RoutePattern.ofString pattern <;> rfl

/-- Whether a sender is authorized, if it is asked for at all. -/
theorem decision_authorizes (senderPattern : String) (sender : Option String) :
    decision settings (s.authorizes senderPattern sender) =
      if senderPattern.isEmpty || senderPattern = "*" then .ok true
      else if (sender.getD "").isEmpty then .ok false
      else decision settings
        (accepts senderPattern (Number.digits (s.normalize settings (sender.getD "")))) := by
  unfold authorizes
  simp only [Exchange.decision_ite, decision_bind, Exchange.decision_settingsNow,
    Exchange.decision_pure, Exchange.ok_bind]

/-- The number as the endpoint sees it, by the template of the route. -/
theorem decision_address (normal : String) :
    decision settings (s.address r normal) =
      match r.template? with
      | none => .ok normal
      | some template =>
        if RoutePattern.isOpen r.pattern then .ok normal
        else decision settings
          (Exchange.transform s.strict (Number.digits normal) r.pattern template) := by
  unfold address
  cases r.template? with
  | none => rfl
  | some template =>
    simp only [Exchange.decision_ite, decision_bind, Exchange.decision_note,
      Exchange.decision_pure, Exchange.ok_bind]

/-- The answer for a call's own route with what is known of the call. -/
def completed : Option Plan → Work CallError (Option Plan)
  | none => return none
  | some plan => do
    let normal := s.normalize (← Exchange.settingsNow)
    let leg := completeLeg r (normal (callNumbers r).1) (normal (callNumbers r).2) plan.leg
    return some { plan with leg }

instance (answer : Option Plan) : Neutral (s.completed r answer) := by
  unfold completed
  cases answer <;> infer_instance

/-- A call's own route is asked for the numbers of the call, and then the answer is completed. -/
theorem routeCall_eq :
    s.routeCall r =
      s.route r (callNumbers r).1 (some (callNumbers r).2) >>= s.completed r := by
  unfold routeCall
  congr

instance : Neutral (s.routeCall r) := by
  rw [routeCall_eq]
  infer_instance

/-- What is known of the call is completed with the normal forms of its numbers. -/
theorem decision_completed (answer : Option Plan) :
    decision settings (s.completed r answer) =
      .ok (answer.map fun plan =>
        let normal := s.normalize settings
        let leg := completeLeg r (normal (callNumbers r).1) (normal (callNumbers r).2) plan.leg
        { plan with leg }) := by
  cases answer <;> rfl

/-- A call's own route is asked, and the answer completed. -/
theorem decision_routeCall :
    decision settings (s.routeCall r) =
      decision settings (s.route r (callNumbers r).1 (some (callNumbers r).2)) >>= fun answer =>
        decision settings (s.completed r answer) := by
  rw [routeCall_eq, decision_bind]

end Switch

/-! ## Dial plans -/

namespace DialPlan

variable (settings : Settings) (s : Switch) (destination : String) (sender : Option String)

instance (routes : List Route) : Neutral (firstPlan s destination sender routes) := by
  induction routes with
  | nil =>
    unfold firstPlan
    infer_instance
  | cons r rest ih =>
    unfold firstPlan
    refine Neutral.bind inferInstance fun answer => ?_
    cases answer with
    | some plan => infer_instance
    | none => exact ih

instance (p : DialPlan) (direction : Option Direction) :
    Neutral (p.route destination sender direction) :=
  inferInstanceAs (Neutral (firstPlan _ _ _ _))

/-- The first route that applies makes the plan. -/
theorem decision_firstPlan_cons (r : Route) (rest : List Route) :
    decision settings (firstPlan s destination sender (r :: rest)) =
      decision settings (s.route r destination sender) >>= fun answer =>
        if answer.isSome then .ok answer
        else decision settings (firstPlan s destination sender rest) := by
  have hrest : ∀ answer, Neutral (match answer with
      | some plan => return some plan
      | none => firstPlan s destination sender rest : Work CallError (Option Plan)) := by
    intro answer
    cases answer <;> infer_instance
  rw [firstPlan, decision_bind]
  congr
  funext answer
  cases answer <;> rfl

/-- **Where the search for a plan fails.** A route fails, and no route before it applies. -/
theorem decision_firstPlan_eq_error {routes : List Route} {e : CallError}
    (h : decision settings (firstPlan s destination sender routes) = .error e) :
    ∃ before r after, routes = before ++ r :: after ∧
      (∀ r' ∈ before, decision settings (s.route r' destination sender) = .ok none) ∧
      decision settings (s.route r destination sender) = .error e := by
  induction routes with
  | nil => cases h
  | cons r rest ih =>
    rw [decision_firstPlan_cons] at h
    cases hr : decision settings (s.route r destination sender) with
    | error e' =>
      rw [hr] at h
      cases h
      exact ⟨[], r, rest, rfl, List.forall_mem_nil _, hr⟩
    | ok answer =>
      rw [hr] at h
      cases answer with
      | some plan => cases h
      | none =>
        obtain ⟨before, r', after, rfl, hbefore, herror⟩ := ih h
        refine ⟨r :: before, r', after, rfl, ?_, herror⟩
        exact List.forall_mem_cons.mpr ⟨hr, hbefore⟩

end DialPlan

end CallRouting

import CallRouting.Proofs.Decision

/-!
# The first route that applies decides

A route *applies* to a request if it has the direction that is asked for and the switch has more to
say about it than that there is no plan (`DialPlan.Applies`): it makes a plan, or it fails.

* **The search** (`decision_firstPlan`): it ends with the first route that the switch does not pass
  over, whatever comes of that route.
* **A request** (`route_eq_first`): a dial plan answers what the switch answers for the first route
  that applies. The direction is asked before the switch is, so that a route of the other direction
  is passed over whatever its patterns are.
* **Together** (`first_applicable_decides`): routes that do not apply can be put in, left out and
  moved, and what stands behind the first route that applies can be changed, and no answer changes.
-/

namespace CallRouting.DialPlan

open Exchange (decision Neutral Session)

/-- Whether a route applies to a request: it has the direction that is asked for, if one is, and the
switch does not answer that there is no plan. -/
def Applies (s : Switch) (x : Exchange) (destination : String) (sender : Option String)
    (direction : Option Direction) (r : Route) : Prop :=
  (∀ d ∈ direction, r.direction = d) ∧ (s.route r destination sender x).1 ≠ .ok none

instance (s : Switch) (x : Exchange) (destination : String) (sender : Option String)
    (direction : Option Direction) : DecidablePred (Applies s x destination sender direction) :=
  fun _ => inferInstanceAs (Decidable (_ ∧ _))

variable {s : Switch} {destination : String} {sender : Option String}
  {direction : Option Direction}

/-- **The search ends with the first route that is not passed over.** -/
theorem decision_firstPlan (settings : Settings) (routes : List Route) :
    decision settings (firstPlan s destination sender routes) =
      (routes.find? fun r => decision settings (s.route r destination sender) ≠ .ok none).elim
        (.ok none) fun r => decision settings (s.route r destination sender) := by
  induction routes with
  | nil => rfl
  | cons r rest ih =>
    rw [decision_firstPlan_cons, ih, List.find?_cons]
    cases hr : decision settings (s.route r destination sender) with
    | error e => exact hr.symm
    | ok answer =>
      cases answer with
      | none => rfl
      | some plan => exact hr.symm

/-- The candidates are the routes of the direction that is asked for, if one is. -/
theorem candidates_eq_filter (p : DialPlan) (direction : Option Direction) :
    p.candidates direction = p.routes.filter fun r => ∀ d ∈ direction, r.direction = d := by
  cases direction with
  | none => simp [candidates]
  | some d => simp [candidates]

/-- **A dial plan answers what the switch answers for the first route that applies**, whatever was
asked in between. -/
theorem route_eq_first {x y : Exchange} (hx : x.Faithful) (hy : Session id x y)
    (routes : List Route) :
    (route ⟨routes, s⟩ destination sender direction y).1 =
      (routes.find? (Applies s x destination sender direction)).elim (.ok none)
        fun r => (s.route r destination sender x).1 := by
  have hyf : y.Faithful := hy.faithful (fun _ _ h => congrArg Settings.limits h) hx
  have hsettings : y.settings = x.settings := hy.kept_eq
  have hroute : ∀ r, (s.route r destination sender x).1 =
      decision x.settings (s.route r destination sender) := fun r => Neutral.answer x hx
  rw [Neutral.answer y hyf, hsettings]
  change decision x.settings (firstPlan s destination sender (candidates ⟨routes, s⟩ direction)) = _
  rw [decision_firstPlan, candidates_eq_filter, List.find?_filter]
  simp only [Applies, hroute, Bool.decide_and, Bool.decide_eq_true]

/-- **The first route that applies decides, and nothing else does.** In every session that keeps the
limits of patterns, and whatever is asked in between: if no route before it applies, the answer for
a route that applies is the answer of the dial plan, be it a plan or a failure, and if no route
applies there is no plan. So two lists of routes have the same answer if their routes that apply
start with the same one. To ask for a direction is to ask the dial plan of the routes that have
it. -/
theorem first_applicable_decides {settings : Settings} {x y : Exchange}
    (hx : Session Settings.limits (Exchange.start settings) x) (hy : Session id x y) (s : Switch)
    (destination : String) (sender : Option String) (direction : Option Direction) :
    (∀ before r after, (∀ r' ∈ before, ¬ Applies s x destination sender direction r') →
        Applies s x destination sender direction r →
        (route ⟨before ++ r :: after, s⟩ destination sender direction y).1 =
          (s.route r destination sender x).1) ∧
      (∀ routes : List Route, (∀ r ∈ routes, ¬ Applies s x destination sender direction r) →
        (route ⟨routes, s⟩ destination sender direction y).1 = .ok none) ∧
      (∀ routes routes' : List Route,
        (routes.filter (Applies s x destination sender direction)).head? =
          (routes'.filter (Applies s x destination sender direction)).head? →
        (route ⟨routes, s⟩ destination sender direction y).1 =
          (route ⟨routes', s⟩ destination sender direction y).1) ∧
      ∀ (routes : List Route) (d : Direction),
        (route ⟨routes, s⟩ destination sender (some d) y).1 =
          (route ⟨routes.filter (·.direction = d), s⟩ destination sender none y).1 := by
  have hxf : x.Faithful := hx.faithful (fun _ _ h => h) (Exchange.faithful_start settings)
  have hfirst : ∀ routes, (route ⟨routes, s⟩ destination sender direction y).1 =
      (routes.find? (Applies s x destination sender direction)).elim (.ok none)
        fun r => (s.route r destination sender x).1 := route_eq_first hxf hy
  refine ⟨fun before r after hbefore hr => ?_, fun routes hnone => ?_, fun routes routes' h => ?_,
    fun routes d => rfl⟩
  · have hskipped : before.find? (Applies s x destination sender direction) = none :=
      List.find?_eq_none.mpr fun r' hr' => by simpa using hbefore r' hr'
    have hfound : (r :: after).find? (Applies s x destination sender direction) = some r :=
      List.find?_cons_of_pos (decide_eq_true hr)
    rw [hfirst, List.find?_append, hskipped, Option.none_or, hfound]
    rfl
  · have hskipped : routes.find? (Applies s x destination sender direction) = none :=
      List.find?_eq_none.mpr fun r' hr' => by simpa using hnone r' hr'
    rw [hfirst, hskipped]
    rfl
  · rw [List.head?_filter, List.head?_filter] at h
    rw [hfirst, hfirst, h]

/-- A malformed route of the other direction and a route for other numbers stand in front, a
malformed route of the same direction behind. -/
theorem first_applicable_decides_malformed :
    (route ⟨[{ id := "a", receiverAddress := "[", leg := .outbound {} none },
        { id := "b", receiverAddress := "44*" }, { id := "c", receiverAddress := "1202*" },
        { id := "d", receiverAddress := "[" }], ⟨"1", true⟩⟩
        "(202) 555-0123" none (some .inbound) (Exchange.start {})).1 =
      .ok (some ⟨.localCall, true, "1202*", "+12025550123", "", .inbound "1202*" none⟩) := by
  have hstart : Session Settings.limits (Exchange.start {}) (Exchange.start {}) := .refl
  obtain ⟨hfirst, -⟩ := first_applicable_decides hstart .refl ⟨"1", true⟩ "(202) 555-0123" none
    (some .inbound)
  refine (hfirst [_, _] _ [_] ?_ ?_).trans ?_
  · decide +kernel
  · decide +kernel
  · decide +kernel

end CallRouting.DialPlan

import CallRouting.Proofs.Answers
import CallRouting.Proofs.Routing

/-!
# What the two make of one answer

The commands translate answers into exit codes and printed values, the service into status codes and
bodies. What the two make of one answer is alike.

* **Alike** (`FitAlike`, `TransformAlike`, `RouteAlike`): which exit code goes with which status,
  and which fields of the two results are the same. Failures are reported with one code and one
  message (`FailAlike`).
* **Translations** (`Translation`): what the two make of the answers to one question. A search that
  there is no room for is reported by neither; of every other answer that a question has, both make
  the same (`serves_fit`, `serves_transform`, `serves_route`). For routes this rests on the
  soundness of a dial plan that was loaded: the command has no report for malformed patterns and for
  numbers that do not fit.
-/

namespace CallRouting

open CommandLine (Outcome callFailure fitOutcome transformOutcome routeOutcome)
open Service (fitResponse transformResponse routeResponse)
open Exchange (decision)

/-! ## What is seen of the two -/

/-- Whether a command prints a JSON value with the given fields. What is printed can be read with
little room already. -/
def CommandLine.Outcome.Prints (o : Outcome) (fields : List (String × Json)) : Prop :=
  ∃ v, (∀ room, Json.read (room + 2) o.output = .ok v) ∧ ∀ f ∈ fields, v.field? f.1 = some f.2

/-- Whether there is a response with a status and the given fields. -/
def Responding.Holds (h : Responding) (status : Nat) (fields : List (String × Json)) : Prop :=
  ∃ r, h = .ok r ∧ r.status = status ∧ ∀ f ∈ fields, r.body.field? f.1 = some f.2

/-- Nothing is no JSON value. -/
theorem CommandLine.Outcome.not_prints {o : Outcome} (h : o.output = "")
    (fields : List (String × Json)) : ¬ o.Prints fields := by
  rintro ⟨v, hv, -⟩
  have hread := hv 0
  rw [h] at hread
  cases hread

/-- The fields of a textual value that is printed. -/
theorem CommandLine.Outcome.prints_printed_iff {v : Json}
    (h : ∀ room, Json.isTextual (room + 2) v = true) (exitCode : Nat)
    (fields : List (String × Json)) :
    (Outcome.printed exitCode .json v).Prints fields ↔ ∀ f ∈ fields, v.field? f.1 = some f.2 := by
  have hread : ∀ room,
      Json.read (room + 2) (Outcome.printed exitCode .json v).output = .ok v :=
    fun room => Json.read_page (h room)
  simp [Outcome.Prints, hread]

/-- The fields of a response. -/
@[simp] theorem Responding.holds_ok_iff {r : Response} {status : Nat}
    {fields : List (String × Json)} :
    Responding.Holds (.ok r) status fields ↔
      r.status = status ∧ ∀ f ∈ fields, r.body.field? f.1 = some f.2 := by
  simp [Holds]

/-- Without a response there are no fields. -/
@[simp] theorem Responding.not_holds_error {b : Breakdown} {status : Nat}
    {fields : List (String × Json)} : ¬ Responding.Holds (.error b) status fields := by
  simp [Holds]

/-! ## Alike -/

/-- Whether a command and the service fail alike: with the same code and the same message. -/
structure FailAlike (o : Outcome) (h : Responding) : Prop where
  report : ∀ code message,
    o.errors = [.failure code message] ↔
      ∃ status, status ≠ 200 ∧ h = .ok (.failure status code message)
  told : ∀ r, h = .ok r → r.status ≠ 200 → ∃ code message, r = .failure r.status code message

/-- Whether a number is fitted to a pattern alike. -/
structure FitAlike (o : Outcome) (h : Responding) : Prop where
  answered : ∀ matched groups rest,
    (o.exitCode = 0 ∨ o.exitCode = 1) ∧
        o.Prints [("matched", matched), ("groups", groups), ("rest", rest)] ↔
      h.Holds 200 [("matched", matched), ("groups", groups), ("rest", rest)]
  failures : FailAlike o h

/-- Whether a number is written anew alike. -/
structure TransformAlike (o : Outcome) (h : Responding) : Prop where
  answered : ∀ result,
    o.exitCode = 0 ∧ o.Prints [("result", result)] ↔ h.Holds 200 [("result", result)]
  noFit : o.exitCode = 1 ↔ h.Holds 422 [("code", .str "NO_MATCH")]
  mismatch : o.exitCode = 3 ↔ h.Holds 422 [("code", .str "CAPTURE_LENGTH_MISMATCH")]
  failures : FailAlike o h

/-- The fields of a plan that both give. -/
def planFields : List String :=
  ["classification", "is_authorized", "destination_endpoint", "transformed_address",
    "destination_host"]

/-- Whether a number is routed alike. -/
structure RouteAlike (o : Outcome) (h : Responding) : Prop where
  answered : o.exitCode = 0 ↔ h.Holds 200 []
  same : o.exitCode = 0 → ∀ name ∈ planFields, ∃ v, o.Prints [(name, v)] ∧ h.Holds 200 [(name, v)]
  noRoute : o.exitCode = 1 ↔ h.Holds 404 [("code", .str "NO_ROUTE")]
  mismatch : o.exitCode = 3 ↔ h.Holds 422 []
  failures : FailAlike o h

/-- A failure that both report. -/
theorem FailAlike.of_failed {status : Nat} (hstatus : status ≠ 200) (exitCode : Nat)
    (code message : String) :
    FailAlike (.failed exitCode code message) (.ok (.failure status code message)) where
  report code' message' := by
    simp [Outcome.failed, Response.failure, hstatus]
  told r h _ := by
    cases h
    exact ⟨code, message, rfl⟩

/-- A result that both give. -/
theorem FailAlike.of_printed (exitCode : Nat) (format : CommandLine.Format) (result body : Json) :
    FailAlike (.printed exitCode format result) (.ok ⟨200, body⟩) where
  report code message := by
    simp [Outcome.printed, Response.failure, eq_comm]
  told r h hne := by
    cases h
    exact absurd rfl hne

/-- A call that fails, but not for lack of room. -/
theorem FailAlike.of_callError {e : CallError} (h : e ≠ .tooDeep) :
    FailAlike (callFailure e) (Response.ofCallError e) := by
  cases e with
  | pattern e => exact .of_failed (by decide) _ _ _
  | noFit number source => exact .of_failed (by decide) _ _ _
  | template e => exact .of_failed (by decide) _ _ _
  | tooDeep => exact absurd rfl h

/-! ## Codes of a call that fails -/

section Codes

variable (e : CallError)

/-- A call that fails prints nothing. -/
theorem not_prints_callFailure (fields : List (String × Json)) :
    ¬ (callFailure e).Prints fields := by
  cases e <;> exact Outcome.not_prints rfl fields

/-- A call that fails is not answered with success. -/
theorem not_holds_ofCallError (fields : List (String × Json)) :
    ¬ Responding.Holds (Response.ofCallError e) 200 fields := by
  cases e <;> simp [Response.ofCallError, Response.failure]

/-- The exit code for malformed patterns. -/
theorem exitCode_callFailure_eq_two_iff :
    (callFailure e).exitCode = 2 ↔ ∃ fault, e = .pattern fault := by
  cases e <;> simp [callFailure, Outcome.failed, Outcome.stopped]

/-- The status for malformed patterns. -/
theorem holds_ofCallError_refused_iff :
    Responding.Holds (Response.ofCallError e) 400 [] ↔ ∃ fault, e = .pattern fault := by
  cases e <;> simp [Response.ofCallError, Response.failure]

/-- Numbers that do not fit. -/
theorem exitCode_callFailure_eq_one_iff (h : e ≠ .tooDeep) :
    (callFailure e).exitCode = 1 ↔
      Responding.Holds (Response.ofCallError e) 422 [("code", .str "NO_MATCH")] := by
  cases e <;>
    simp [callFailure, Outcome.failed, Response.ofCallError, Response.failure, CallError.code,
      Json.field?, List.lookup_cons] at h ⊢

/-- Templates that misfit. -/
theorem exitCode_callFailure_eq_three_iff :
    (callFailure e).exitCode = 3 ↔
      Responding.Holds (Response.ofCallError e) 422 [("code", .str "CAPTURE_LENGTH_MISMATCH")] := by
  cases e <;>
    simp [callFailure, Outcome.failed, Outcome.stopped, Response.ofCallError, Response.failure,
      CallError.code, Json.field?, List.lookup_cons]

end Codes

/-! ## Translations -/

/-- Whether one of the patterns has more atoms than there is room for, though it keeps the
limits. -/
def Settings.LacksRoom (settings : Settings) (sources : List String) : Prop :=
  ∃ source ∈ sources, ∃ p, Pattern.parse settings.limits source = .ok p ∧
    settings.rooms.search < p.atoms.length ∧ (p.atoms.length : Int) ≤ settings.maxPatternLength

/-- A pattern that a search has no room for keeps the limits all the same. -/
theorem Settings.lacksRoom_of_parse {settings : Settings} {sources : List String} {source : String}
    {p : Pattern} (hmem : source ∈ sources) (hp : Pattern.parse settings.limits source = .ok p)
    (hdeep : settings.rooms.search < p.atoms.length) : settings.LacksRoom sources :=
  ⟨source, hmem, p, hp, hdeep, Pattern.length_atoms_le_of_parse hp⟩

/-- What a command and the service make of the answer to a question; of a search that there is no
room for, neither makes a report. -/
structure Translation (α : Type) where
  command : Except CallError α → Outcome
  service : Except CallError α → Responding
  command_tooDeep : command (.error .tooDeep) = .stopped (.call .tooDeep)
  service_tooDeep : service (.error .tooDeep) = .error .tooDeep

namespace Translation

variable {α : Type} (t : Translation α) (alike : Outcome → Responding → Prop)

/-- Whether both make something of an answer, and alike. -/
structure Says (answer : Except CallError α) : Prop where
  caught : (t.command answer).uncaught = none
  responded : ∃ r, t.service answer = .ok r
  alike : alike (t.command answer) (t.service answer)

/-- What may be the answer to a question about patterns: there is no room for the search, since one
of them has too many atoms, or it is one that both make the same of. -/
inductive Serves (settings : Settings) (sources : List String) : Except CallError α → Prop
  | lacking (h : settings.LacksRoom sources) : Serves settings sources (.error .tooDeep)
  | said {answer : Except CallError α} (h : t.Says alike answer) : Serves settings sources answer

variable {t alike}

/-- Both make something of an answer only if there was room for the search. -/
theorem Says.ne_tooDeep {answer : Except CallError α} (h : t.Says alike answer) :
    answer ≠ .error .tooDeep := by
  rintro rfl
  obtain ⟨r, hr⟩ := h.responded
  rw [t.service_tooDeep] at hr
  cases hr

end Translation

/-- A call that fails for no lack of room ends with a report. -/
theorem uncaught_callFailure {e : CallError} (h : e ≠ .tooDeep) :
    (callFailure e).uncaught = none := by
  cases e with
  | pattern | noFit | template => rfl
  | tooDeep => exact absurd rfl h

/-- A call that fails for no lack of room is responded to. -/
theorem exists_ofCallError {e : CallError} (h : e ≠ .tooDeep) :
    ∃ r, Response.ofCallError e = .ok r := by
  cases e with
  | pattern | noFit | template => exact ⟨_, rfl⟩
  | tooDeep => exact absurd rfl h

/-! ### Fitting -/

/-- What the two make of the answer when a number is to be fitted. -/
def fitTranslation (pattern input : String) : Translation (Option Pattern.Fit) :=
  ⟨fitOutcome pattern input .json, fitResponse, rfl, rfl⟩

/-- A list of texts is textual. -/
theorem Json.itemsTextual_map_str (room : Nat) (texts : List String) :
    itemsTextual room (texts.map .str) = true := by
  induction texts with
  | nil => rfl
  | cons text texts ih =>
    rw [List.map_cons, itemsTextual, ih]
    simp [isTextual]

/-- What `fit` prints is textual. -/
theorem isTextual_fit (pattern input : String) (f : Option Pattern.Fit) (room : Nat) :
    Json.isTextual (room + 2) (.obj
      [("pattern", .str pattern), ("input", .str input), ("matched", .bool f.isSome),
       ("groups", .ofStrings ((f.map (·.groups)).getD [])),
       ("rest", .ofString? (f.bind (·.rest)))]) = true := by
  have hrest : Json.isTextual (room + 1) (.ofString? (f.bind (·.rest))) = true := by
    cases f.bind (·.rest) <;> simp [Json.ofString?, Json.isTextual]
  simp [Json.isTextual, Json.fieldsTextual, Json.ofStrings, Json.itemsTextual_map_str, hrest]

/-- Fitting a number fails if the pattern is malformed or there is no room. -/
theorem Exchange.decision_fit?_eq_error {settings : Settings} {pattern input : String}
    {e : CallError} (h : decision settings (fit? pattern input) = .error e) :
    (∃ fault, e = .pattern fault) ∨ e = .tooDeep ∧ settings.LacksRoom [pattern] := by
  rw [decision_fit?, decision_pattern] at h
  cases hp : Pattern.parse settings.limits pattern with
  | error fault =>
    rw [hp] at h
    cases h
    exact Or.inl ⟨fault, rfl⟩
  | ok p =>
    rw [hp] at h
    obtain ⟨rfl, hdeep⟩ := fitTo_eq_error h
    exact Or.inr ⟨rfl, Settings.lacksRoom_of_parse List.mem_cons_self hp hdeep⟩

/-- **A number is fitted to a pattern alike.** -/
theorem serves_fit (settings : Settings) (pattern input : String) :
    (fitTranslation pattern input).Serves FitAlike settings [pattern]
      (decision settings (Exchange.fit? pattern input)) := by
  cases hanswer : decision settings (Exchange.fit? pattern input) with
  | error e =>
    rcases Exchange.decision_fit?_eq_error hanswer with ⟨fault, rfl⟩ | ⟨rfl, hroom⟩
    · have hreport : FitAlike (callFailure (.pattern fault))
          (Response.ofCallError (.pattern fault)) :=
        ⟨fun _ _ _ => iff_of_false (fun h => not_prints_callFailure _ _ h.2)
          (not_holds_ofCallError _ _), .of_callError (by simp)⟩
      exact .said ⟨rfl, ⟨_, rfl⟩, hreport⟩
    · exact .lacking hroom
  | ok f =>
    refine .said ⟨rfl, ⟨_, rfl⟩, fun _ _ _ => ?_, .of_printed _ _ _ _⟩
    change _ ∧ (fitOutcome pattern input .json (.ok f)).Prints _ ↔ _
    rw [fitOutcome, Outcome.prints_printed_iff (isTextual_fit pattern input f)]
    cases f <;> simp [fitTranslation, fitOutcome, fitResponse, Outcome.printed, Json.field?,
      List.lookup_cons]

/-! ### Writing anew -/

/-- What the two make of the answer when a number is to be written anew. -/
def transformTranslation (input pattern : String) : Translation String :=
  ⟨transformOutcome input pattern .json, transformResponse, rfl, rfl⟩

/-- Writing a number anew fails for lack of room only if the pattern has too many atoms. -/
theorem Exchange.lacksRoom_of_transform {settings : Settings} {strict : Bool}
    {input pattern template : String}
    (h : decision settings (transform strict input pattern template) = .error .tooDeep) :
    settings.LacksRoom [pattern] := by
  rw [decision_transform, decision_pattern] at h
  cases hp : Pattern.parse settings.limits pattern with
  | error fault =>
    rw [hp] at h
    cases h
  | ok p =>
    rw [hp] at h
    simp only [Except.mapError, ok_bind] at h
    cases hfit : fitTo p input settings.limits.room with
    | error e => exact Settings.lacksRoom_of_parse List.mem_cons_self hp (fitTo_eq_error hfit).2
    | ok answer =>
      rw [hfit] at h
      cases answer with
      | none => cases h
      | some f =>
        simp only [ok_bind, rendered] at h
        cases hrender : render strict f.groups f.rest (some p.hasRest) template <;>
          rw [hrender] at h <;> cases h

/-- **A number is written anew alike.** -/
theorem serves_transform (settings : Settings) (strict : Bool) (input pattern template : String) :
    (transformTranslation input pattern).Serves TransformAlike settings [pattern]
      (decision settings (Exchange.transform strict input pattern template)) := by
  cases hanswer : decision settings (Exchange.transform strict input pattern template) with
  | error e =>
    by_cases hdeep : e = .tooDeep
    · subst hdeep
      exact .lacking (Exchange.lacksRoom_of_transform hanswer)
    · have hreport : TransformAlike (callFailure e) (Response.ofCallError e) :=
        ⟨fun _ => iff_of_false (fun h => not_prints_callFailure e _ h.2)
          (not_holds_ofCallError e _), exitCode_callFailure_eq_one_iff e hdeep,
          exitCode_callFailure_eq_three_iff e, .of_callError hdeep⟩
      exact .said ⟨uncaught_callFailure hdeep, exists_ofCallError hdeep, hreport⟩
  | ok result =>
    have htextual : ∀ room, Json.isTextual (room + 2) (.obj
        [("input", .str input), ("pattern", .str pattern), ("result", .str result)]) = true := by
      simp [Json.isTextual, Json.fieldsTextual]
    refine .said ⟨rfl, ⟨_, rfl⟩, fun other => ?_, ?_, ?_, .of_printed _ _ _ _⟩
    · change _ ∧ (transformOutcome input pattern .json (.ok result)).Prints _ ↔ _
      rw [transformOutcome, Outcome.prints_printed_iff htextual]
      simp [transformTranslation, transformOutcome, transformResponse, Outcome.printed, Json.field?,
        List.lookup_cons]
    all_goals simp [transformTranslation, transformOutcome, transformResponse, Outcome.printed]

/-! ### Routing -/

/-- What the two make of the answer when a number is to be routed. -/
def routeTranslation (destination planId planId' : String) : Translation (Option Plan) :=
  ⟨routeOutcome destination planId .json, routeResponse destination planId', rfl, rfl⟩

/-- What `route` prints is textual. -/
theorem isTextual_plan (p : Plan) (id : String) (room : Nat) :
    Json.isTextual (room + 2) (.obj (p.fields id)) = true := by
  rcases p with ⟨class_, _, _, _, _, ⟨_, _ | _⟩ | ⟨_, _ | ⟨_, _, _ | _⟩⟩⟩ <;>
    simp [Plan.fields, Plan.commonFields, Plan.legFields, Plan.classFields, Json.isTextual,
      Json.fieldsTextual, Json.ofString?]

/-- Both give the same fields of a plan. -/
theorem exists_planField (p : Plan) (id id' : String) {name : String} (h : name ∈ planFields) :
    ∃ v, (Json.obj (p.fields id)).field? name = some v ∧
      (Service.planJson p id').field? name = some v := by
  simp only [planFields, List.mem_cons, List.not_mem_nil, or_false] at h
  rcases h with rfl | rfl | rfl | rfl | rfl <;>
    simp [Plan.fields, Plan.commonFields, Service.planJson, Json.field?, List.lookup_cons]

/-- The patterns of the routes of a dial plan. -/
def DialPlan.sources (plan : DialPlan) : List String :=
  plan.routes.flatMap fun r => [r.pattern, r.senderAddress]

/-- Routing through a dial plan with sound routes fails if the template misfits or there is no
room. -/
theorem DialPlan.decision_route_eq_error {settings : Settings} {plan : DialPlan} {checked : Bool}
    (hsound : ∀ r ∈ plan.routes, Route.Sound settings.limits checked r)
    (hstrict : plan.switch.strict = true → checked = true) {destination : String}
    {sender : Option String} {direction : Option Direction} {e : CallError}
    (h : decision settings (plan.route destination sender direction) = .error e) :
    (∃ fault, e = .template fault) ∨ e = .tooDeep ∧ settings.LacksRoom plan.sources := by
  cases leftOpen_of_route_eq_error (Exchange.faithful_fresh settings) hsound hstrict h with
  | tooDeep hr hdeep =>
    obtain ⟨source, hsource, p, hp, hmany⟩ := hdeep
    exact Or.inr ⟨rfl, Settings.lacksRoom_of_parse
      (List.mem_flatMap.mpr ⟨_, mem_routes_of_mem_candidates hr, hsource⟩) hp hmany⟩
  | misfit => exact Or.inl ⟨_, rfl⟩

/-- **A number is routed alike.** -/
theorem serves_route {settings : Settings} {plan : DialPlan} {checked : Bool}
    (hsound : ∀ r ∈ plan.routes, Route.Sound settings.limits checked r)
    (hstrict : plan.switch.strict = true → checked = true) (destination : String)
    (sender : Option String) (direction : Option Direction) (planId planId' : String) :
    (routeTranslation destination planId planId').Serves RouteAlike settings plan.sources
      (decision settings (plan.route destination sender direction)) := by
  cases hanswer : decision settings (plan.route destination sender direction) with
  | error e =>
    rcases DialPlan.decision_route_eq_error hsound hstrict hanswer with
      ⟨fault, rfl⟩ | ⟨rfl, hroom⟩
    · refine .said ⟨rfl, ⟨_, rfl⟩, ?_, ?_, ?_, ?_, .of_failed (by decide) _ _ _⟩
      all_goals simp [routeTranslation, routeOutcome, routeResponse, callFailure, Outcome.failed,
        Response.ofCallError, Response.failure]
    · exact .lacking hroom
  | ok plan? =>
    cases plan? with
    | none =>
      refine .said ⟨rfl, ⟨_, rfl⟩, ?_, ?_, ?_, ?_, .of_failed (by decide) _ _ _⟩
      all_goals simp [routeTranslation, routeOutcome, routeResponse, Outcome.failed,
        Response.failure, Json.field?, List.lookup_cons]
    | some p =>
      refine .said ⟨rfl, ⟨_, rfl⟩, ?_, fun _ name hname => ?_, ?_, ?_, .of_printed _ _ _ _⟩
      · simp [routeTranslation, routeOutcome, routeResponse, Outcome.printed]
      · obtain ⟨v, hprinted, hanswered⟩ := exists_planField p planId planId' hname
        refine ⟨v, ?_, ?_⟩
        · change (routeOutcome destination planId .json (.ok (some p))).Prints _
          rw [routeOutcome, Outcome.prints_printed_iff (isTextual_plan p planId)]
          exact List.forall_mem_singleton.mpr hprinted
        · change Responding.Holds (routeResponse destination planId' (.ok (some p))) 200 _
          rw [routeResponse, Responding.holds_ok_iff]
          exact ⟨rfl, List.forall_mem_singleton.mpr hanswered⟩
      all_goals simp [routeTranslation, routeOutcome, routeResponse, Outcome.printed]

end CallRouting

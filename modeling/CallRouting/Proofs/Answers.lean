import CallRouting.CommandLine.Run
import CallRouting.Proofs.Documents

/-!
# Commands and requests come down to questions

A command and a request that ask the same thing put the same question to the exchange. What the one
ends in and what the other is answered is a function of the answer to that question.

* **Commands** (`CommandLine.fst_run_fit`, `fst_run_transform`, `fst_run_route`): for a number that
  is given on the command line, and for a rules file that can be loaded; one that cannot is what the
  command comes to (`CommandLine.fst_run_of_load_error`).
* **The service** (`Service.fst_answer_fit`, `fst_answer_transform`, `fst_answer_route`).
* **Requests** (`Request.Asks`, `Service.respond_of_asks`): a request asks for what the reader of
  the bodies at its address makes of its body, and the service answers that. Whatever the pattern
  and the number are, there is a request for them (`Request.asks_fit`, `Request.asks_route`).
-/

namespace CallRouting

open CommandLine (Command Outcome Surroundings callFailure)
open Exchange (decision Neutral Session)

namespace Exchange

variable {β : Type} {x : Exchange}

/-- Work that goes on with the answer to a question. -/
theorem run_bind_apply {ε α : Type} (w : Work ε α) (k : Except ε α → StateM Exchange β) :
    (w.run >>= k) x = k (w x).1 (w x).2 := rfl

/-- One thing is done after the other. -/
theorem work_bind_apply {α : Type} (work : StateM Exchange α) (k : α → StateM Exchange β) :
    (work >>= k) x = k (work x).1 (work x).2 := rfl

/-- Work that looks at the exchange first. -/
theorem get_bind_apply (k : Exchange → StateM Exchange β) :
    ((get : StateM Exchange Exchange) >>= k) x = k x x := rfl

end Exchange

/-! ## What a command comes to -/

namespace CommandLine

/-- The outcome of fitting a number, given the answer. -/
def fitOutcome (pattern input : String) (format : Format) :
    Except CallError (Option Pattern.Fit) → Outcome
  | .error e => callFailure e
  | .ok f => .printed (if f.isSome then 0 else 1) format (.obj
      [("pattern", .str pattern), ("input", .str input), ("matched", .bool f.isSome),
       ("groups", .ofStrings ((f.map (·.groups)).getD [])),
       ("rest", .ofString? (f.bind (·.rest)))])

/-- The outcome of writing a number anew, given the answer. -/
def transformOutcome (input pattern : String) (format : Format) :
    Except CallError String → Outcome
  | .error e => callFailure e
  | .ok result => .printed 0 format (.obj
      [("input", .str input), ("pattern", .str pattern), ("result", .str result)])

/-- The outcome of routing a number through a dial plan that was loaded, given the answer. -/
def routeOutcome (destination planId : String) (format : Format) :
    Except CallError (Option Plan) → Outcome
  | .error (.template e) => callFailure (.template e)
  | .error e => .stopped (.call e)
  | .ok none => .failed 1 "NO_ROUTE" s!"No route for destination {destination}"
  | .ok (some p) => .printed 0 format (.obj (p.fields planId))

variable {x : Exchange} {s : Surroundings} {format : Format}

/-- Fitting a number, be it given on the command line. -/
theorem fst_run_fit (hx : x.Faithful) {pattern input : String} (hinput : input ≠ "-") :
    ((Command.fit pattern input).run s format x).1 =
      fitOutcome pattern input format (decision x.settings (Exchange.fit? pattern input)) := by
  rw [← Neutral.answer x hx]
  simp only [Command.run, readInput, if_neg hinput, runFit, Exchange.run_bind_apply]
  cases (Exchange.fit? pattern input x).1 <;> rfl

/-- Writing a number anew, be it given on the command line. -/
theorem fst_run_transform (hx : x.Faithful) {input pattern template : String} {lenient : Bool}
    (hinput : input ≠ "-") :
    ((Command.transform input pattern template lenient).run s format x).1 =
      transformOutcome input pattern format (decision x.settings
        (Exchange.transform (!lenient && x.settings.strictTemplates) input pattern template)) := by
  rw [← Neutral.answer x hx]
  simp only [Command.run, readInput, if_neg hinput, runTransform, Exchange.get_bind_apply,
    Exchange.run_bind_apply]
  cases (Exchange.transform (!lenient && x.settings.strictTemplates) input pattern template x).1
  all_goals rfl

/-- Routing a number, if the dial plan can be loaded. -/
theorem fst_run_route (hx : x.Faithful) {rules destination : String}
    {sender : Option String} {direction : Option Direction} {plan : DialPlan}
    (hload : (DialPlan.load s.files (.setUp x.settings none none) rules x).1 = .ok plan) :
    ((Command.route rules destination sender direction).run s format x).1 =
      routeOutcome destination s.planId format
        (decision x.settings (plan.route destination sender direction)) := by
  have hneutral : Neutral (DialPlan.load s.files (.setUp x.settings none none) rules) :=
    inferInstance
  -- the dial plan is loaded in the state that the command finds, and asked in the one after it
  rw [← hneutral.settings_eq x, ← Neutral.answer _ (hneutral.faithful hx)]
  simp only [Command.run, runRoute, loadPlan, bind_assoc, Exchange.get_bind_apply,
    Exchange.run_bind_apply, hload]
  rcases (plan.route destination sender direction _).1 with ⟨_ | _ | _ | _⟩ | _ | _ <;> rfl

/-- A command whose rules file cannot be loaded comes to that failure. -/
theorem fst_run_of_load_error {c : Command} {rules : String} (hc : c.rules? = some rules)
    {e : LoadError}
    (h : (DialPlan.load s.files (.setUp x.settings none none) rules x).1 = .error e) :
    (c.run s format x).1 = loadFailure e := by
  cases c with
  | fit | transform => cases hc
  | route _ destination sender direction =>
    cases hc
    simp only [Command.run, runRoute, loadPlan, bind_assoc, Exchange.get_bind_apply,
      Exchange.run_bind_apply, h]
    rfl
  | check =>
    cases hc
    simp only [Command.run, runCheck, loadPlan, bind_assoc, Exchange.get_bind_apply,
      Exchange.run_bind_apply, h]
    rfl

end CommandLine

/-! ## What the service answers -/

namespace Service

/-- The response to a request to fit a number, given the answer. -/
def fitResponse : Except CallError (Option Pattern.Fit) → Responding
  | .error e => Response.ofCallError e
  | .ok f => .ok ⟨200, .obj [("matched", .bool f.isSome),
      ("groups", .ofStrings ((f.map (·.groups)).getD [])),
      ("rest", .ofString? (f.bind (·.rest)))]⟩

/-- The response to a request to write a number anew, given the answer. -/
def transformResponse : Except CallError String → Responding
  | .error e => Response.ofCallError e
  | .ok result => .ok ⟨200, .obj [("result", .str result)]⟩

/-- The response to a request to route a number, given the answer. -/
def routeResponse (destination planId : String) : Except CallError (Option Plan) → Responding
  | .error e => Response.ofCallError e
  | .ok none => .ok (.failure 404 "NO_ROUTE" s!"No route for destination {destination}")
  | .ok (some p) => .ok ⟨200, planJson p planId⟩

variable {x : Exchange} {service : Service} {planId : String}

/-- Answering a request to fit a number. -/
theorem fst_answer_fit (hx : x.Faithful) {pattern input : String} :
    (service.answer planId (.fit pattern input) x).1 =
      fitResponse (decision x.settings (Exchange.fit? pattern input)) := by
  rw [← Neutral.answer x hx]
  simp only [answer, Exchange.run_bind_apply]
  cases (Exchange.fit? pattern input x).1 <;> rfl

/-- Answering a request to write a number anew. -/
theorem fst_answer_transform (hx : x.Faithful)
    {input pattern template : String} {strict : Option Bool} :
    (service.answer planId (.transform input pattern template strict) x).1 =
      transformResponse (decision x.settings
        (Exchange.transform (strict.getD x.settings.strictTemplates) input pattern template)) := by
  rw [← Neutral.answer x hx]
  simp only [answer, Exchange.get_bind_apply, Exchange.run_bind_apply]
  cases (Exchange.transform (strict.getD x.settings.strictTemplates) input pattern template x).1
  all_goals rfl

/-- Answering a request to route a number, with a dial plan. -/
theorem fst_answer_route (hx : x.Faithful) {plan : DialPlan}
    {destination : String} {sender : Option String} {direction : Option Direction} :
    (answer ⟨some plan⟩ planId (.route destination sender direction) x).1 =
      routeResponse destination planId
        (decision x.settings (plan.route destination sender direction)) := by
  rw [← Neutral.answer x hx]
  simp only [answer, Exchange.run_bind_apply]
  rcases (plan.route destination sender direction x).1 with _ | _ | _ <;> rfl

end Service

/-! ## What a request asks for -/

/-- Whether a request asks for something, with room for so many arrays and objects inside one
another: it is posted to an address with a body, and the reader of the bodies at that address makes
this of it. Bodies in which half a pair of units stands alone are left out, for what is read of them
is not what they say. -/
def Request.Asks (room : Nat) (r : Request) (ask : Ask) : Prop :=
  Text.capitals r.method = "POST" ∧
    (∃ text, Json.decode? r.body = some text ∧ Json.isPaired text = true) ∧
    ∃ path read, Location.path? r.address = some path ∧
      Service.target? path = some (.post read) ∧ Ask.readBody room read r.body = .ok ask

/-- The service answers what a request asks for. -/
theorem Service.respond_of_asks {service : Service} {planId : String} {x : Exchange}
    {r : Request} {ask : Ask} (h : r.Asks x.settings.rooms.body ask) :
    service.respond planId r x = service.answer planId ask x := by
  obtain ⟨hmethod, -, path, read, hpath, htarget, hbody⟩ := h
  simp only [respond, hmethod, hpath, htarget, if_true, Exchange.get_bind_apply, hbody]

/-- A request that posts an object with fields. -/
def Request.posting (path : String) (fields : List (String × Json)) : Request :=
  ⟨"POST", path, (Json.obj fields).bytes⟩

/-- What is posted is asked for. -/
theorem Request.asks_posting {room : Nat} {path : String} {fields : List (String × Json)}
    {ask : Ask}
    (read : Json → Checked Ask) (hpath : Location.path? path = some path)
    (htarget : Service.target? path = some (.post read))
    (htextual : Json.isTextual room (.obj fields) = true)
    (hread : read (.obj fields) = .ok ask) : (posting path fields).Asks room ask := by
  have hmethod : Text.capitals "POST" = "POST" := by decide +kernel
  refine ⟨hmethod, ⟨_, Json.decode?_bytes htextual, Json.isPaired_line .ascii htextual⟩, path, read,
    hpath, htarget, ?_⟩
  simp only [posting, Ask.readBody, Json.readValue_bytes htextual, Exchange.ok_bind, hread]
  rfl

/-- Any number can be asked to be fitted to any pattern. -/
theorem Request.asks_fit (room : Nat) (pattern input : String) :
    (posting "/match" [("pattern", .str pattern), ("input", .str input)]).Asks (room + 1)
      (.fit pattern input) :=
  asks_posting Ask.readFit (by decide +kernel) (by simp [Service.target?])
    (by simp [Json.isTextual, Json.fieldsTextual]) rfl

/-- Any number can be asked to be routed. -/
theorem Request.asks_route (room : Nat) (destination : String) :
    (posting "/route" [("destination", .str destination)]).Asks (room + 1)
      (.route destination none none) :=
  asks_posting Ask.readRoute (by decide +kernel) (by simp [Service.target?])
    (by simp [Json.isTextual, Json.fieldsTextual]) rfl

end CallRouting

import CallRouting.Proofs.Answers
import CallRouting.Proofs.Dialling

/-!
# A switch that is kept does not see later settings

A switch takes its country code and its strictness from the settings when it is set up, and may be
kept while the settings change.

* **Requests** (`Quiet`): whatever is asked for, be it by a command line or of the service, changes
  nothing but the store and the log.
* **Sessions** (`Event.session`, `Event.session_afterAll`): settings other than the limits of
  patterns are changed and anything is asked for, in any order; the limits stay, and every kept
  pattern is what reading its source under them gives.
* **Replies** (`Question.reply_eq`): a switch that has a country code replies to every question, be
  it put to the switch or to a dial plan that works with it, what the limits determine.
* **Together** (`kept_switch_replies_alike`).
-/

namespace CallRouting

open Exchange (decision Neutral Session Step)

/-! ## Requests -/

namespace Exchange

variable {α β ε : Type}

/-- Work that changes nothing but the store and the log. -/
class Quiet (work : StateM Exchange α) : Prop where
  session : ∀ x, Session id x (work x).2

namespace Quiet

instance (a : α) : Quiet (pure a : StateM Exchange α) := ⟨fun _ => .refl⟩

instance : Quiet (get : StateM Exchange Exchange) := ⟨fun _ => .refl⟩

/-- A question is asked, and its answer looked at. -/
instance (w : Work ε α) [hw : Neutral w] : Quiet w.run := ⟨hw.session⟩

/-- One thing is done after the other. -/
theorem bind {work : StateM Exchange α} {k : α → StateM Exchange β} (hwork : Quiet work)
    (hk : ∀ a, Quiet (k a)) : Quiet (work >>= k) :=
  ⟨fun x => (hwork.session x).trans ((hk _).session _)⟩

instance {work : StateM Exchange α} {k : α → StateM Exchange β} [hwork : Quiet work]
    [hk : ∀ a, Quiet (k a)] : Quiet (work >>= k) := hwork.bind hk

instance (c : Prop) [Decidable c] {work work' : StateM Exchange α} [Quiet work] [Quiet work'] :
    Quiet (if c then work else work') := by
  split <;> infer_instance

/-- The log is put aside, and put back behind the records of the work. -/
instance (work : StateM Exchange α) [hwork : Quiet work] : Quiet (recording work) := by
  refine ⟨fun x => ?_⟩
  have haside : Session id x { x with log := [] } := .single (.log x [])
  have hback : Session id (work { x with log := [] }).2 (recording work x).2 :=
    .single (.log _ ((work { x with log := [] }).2.log ++ x.log))
  exact (haside.trans (hwork.session _)).trans hback

end Quiet

/-- A session that keeps all settings keeps the limits of patterns. -/
theorem Session.limits {x y : Exchange} (h : Session id x y) : Session Settings.limits x y := by
  induction h with
  | refl => exact .refl
  | tail _ hstep ih =>
    refine ih.tail ?_
    cases hstep with
    | ask source => exact .ask _ source
    | log log => exact .log _ log
    | configure settings hsettings =>
      exact .configure _ settings (congrArg Settings.limits hsettings)

end Exchange

open Exchange (Quiet)

namespace CommandLine

variable (s : Surroundings) (format : Format)

instance (rules : String) : Quiet (loadPlan s rules) := by
  unfold loadPlan
  infer_instance

instance (c : Command) : Quiet (c.run s format) := by
  cases c with
  | fit pattern input =>
    refine Quiet.bind inferInstance fun answer => ?_
    cases answer <;> infer_instance
  | transform input pattern template lenient =>
    refine Quiet.bind inferInstance fun x => Quiet.bind inferInstance fun answer => ?_
    cases answer <;> infer_instance
  | route rules destination sender direction =>
    refine Quiet.bind inferInstance fun loading => ?_
    rcases loading with e | plan
    · infer_instance
    · refine Quiet.bind inferInstance fun answer => ?_
      rcases answer with ⟨_ | _ | _ | _⟩ | _ | _ <;> infer_instance
  | check rules =>
    refine Quiet.bind inferInstance fun loading => ?_
    cases loading <;> infer_instance

instance (verb : Verb) (words : List String) : Quiet (runWords s verb words) := by
  unfold runWords
  split <;> infer_instance

/-- Running a command line changes nothing but the store and the log. -/
instance (env? : String → Option String) (words : List String) : Quiet (run s env? words) := by
  unfold run
  split
  · infer_instance
  · infer_instance
  · split
    · infer_instance
    · split <;> infer_instance

end CommandLine

namespace Service

variable (service : Service) (planId : String)

instance (ask : Ask) : Quiet (service.answer planId ask) := by
  cases ask with
  | fit pattern input =>
    refine Quiet.bind inferInstance fun answer => ?_
    cases answer <;> infer_instance
  | transform input pattern template strict =>
    refine Quiet.bind inferInstance fun x => Quiet.bind inferInstance fun answer => ?_
    cases answer <;> infer_instance
  | route destination sender direction =>
    unfold answer
    cases service.dialPlan with
    | none => infer_instance
    | some plan =>
      refine Quiet.bind inferInstance fun answer => ?_
      rcases answer with _ | _ | _ <;> infer_instance

/-- Responding to a request changes nothing but the store and the log. -/
instance (r : Request) : Quiet (service.respond planId r) := by
  unfold respond
  cases Location.path? r.address with
  | none => infer_instance
  | some path =>
    dsimp only
    rcases target? path with _ | _ | read
    · infer_instance
    · infer_instance
    · dsimp only
      split_ifs
      · refine Quiet.bind inferInstance fun x => ?_
        cases Ask.readBody x.settings.rooms.body read r.body <;> infer_instance
      · infer_instance

end Service

/-! ## Questions to a switch -/

/-- A question to a switch, or to a dial plan that works with it. -/
inductive Question where
  | normalize (number : String)
  | classify (number pattern : String)
  | accepts (pattern digits : String)
  | authorizes (senderPattern : String) (sender : Option String)
  | route (r : Route) (destination : String) (sender : Option String)
  | routeCall (r : Route)
  | routeThrough (routes : List Route) (destination : String) (sender : Option String)
      (direction : Option Direction)

/-- A reply to a question: a number, a class, a verdict or a plan, if there is no failure. -/
inductive Reply where
  | number (text : String)
  | callClass (c : CallClass)
  | verdict (answer : Except CallError Bool)
  | plan (answer : Except CallError (Option Plan))
  deriving DecidableEq

namespace Question

/-- What a switch replies. -/
def reply (s : Switch) : Question → StateM Exchange Reply
  | .normalize number => return .number (s.normalize (← get).settings number)
  | .classify number pattern => return .callClass (s.classify number pattern)
  | .accepts pattern digits => return .verdict (← (Switch.accepts pattern digits).run)
  | .authorizes senderPattern sender =>
    return .verdict (← (s.authorizes senderPattern sender).run)
  | .route r destination sender => return .plan (← (s.route r destination sender).run)
  | .routeCall r => return .plan (← (s.routeCall r).run)
  | .routeThrough routes destination sender direction =>
    return .plan (← (DialPlan.route ⟨routes, s⟩ destination sender direction).run)

instance (s : Switch) (q : Question) : Quiet (q.reply s) := by
  unfold reply
  cases q <;> infer_instance

end Question

/-! ## Sessions -/

/-- A change of the settings other than the limits of patterns. -/
inductive Change where
  | strictTemplates (strict : Bool)
  | countryCode (code : String)
  | rulesFile (path : String)
  | logLevel (name : String)
  | logFile (path : String)

namespace Change

/-- The settings after a change. -/
def apply (settings : Settings) : Change → Settings
  | .strictTemplates strict => { settings with strictTemplates := strict }
  | .countryCode code => { settings with countryCode := code }
  | .rulesFile path => { settings with rulesFile := path }
  | .logLevel name => { settings with logLevel := name }
  | .logFile path => { settings with logFile := path }

/-- A change keeps the limits of patterns. -/
theorem limits_apply (settings : Settings) (c : Change) :
    (c.apply settings).limits = settings.limits := by
  cases c <;> rfl

end Change

/-- What can happen in a session: the settings change, or something is asked for. -/
inductive Event where
  | change (c : Change)
  /-- A pattern is asked for. -/
  | compile (source : String)
  /-- A number is fitted to a pattern. -/
  | fit (pattern number : String)
  /-- A number is written anew. -/
  | transform (strict : Bool) (number pattern template : String)
  /-- A switch or a dial plan is asked, be it kept or not. -/
  | ask (s : Switch) (q : Question)
  /-- A rule is made of a JSON value. -/
  | rule (place : List PathStep) (v : Json)
  /-- A dial plan is made of a document. -/
  | read (s : Switch) (document : Json)
  /-- A dial plan is loaded from a file. -/
  | load (files : Files) (s : Switch) (path : String)
  /-- A command line is run. -/
  | command (s : CommandLine.Surroundings) (env? : String → Option String) (words : List String)
  /-- The service is started. -/
  | start (files : Files)
  /-- The service responds to a request. -/
  | respond (service : Service) (planId : String) (r : Request)

namespace Event

/-- The exchange after an event. -/
def after (x : Exchange) : Event → Exchange
  | .change c => { x with settings := c.apply x.settings }
  | .compile source => (Exchange.ask source x).2
  | .fit pattern number => (Exchange.fit? pattern number x).2
  | .transform strict number pattern template =>
    (Exchange.transform strict number pattern template x).2
  | .ask s q => (q.reply s x).2
  | .rule place v => (Rule.ofJson place v x).2
  | .read s document => (DialPlan.ofDocument s document x).2
  | .load files s path => (DialPlan.load files s path x).2
  | .command s env? words => (CommandLine.run s env? words x).2
  | .start files => (Service.start files x).2
  | .respond service planId r => (service.respond planId r x).2

/-- The exchange after events, one after the other. -/
def afterAll (x : Exchange) (events : List Event) : Exchange := events.foldl after x

/-- **An event keeps the limits of patterns**, and of all else it changes only what a session may
change. -/
theorem session (x : Exchange) (e : Event) : Session Settings.limits x (after x e) := by
  cases e with
  | change c => exact .single (.configure x _ (c.limits_apply x.settings))
  | compile source => exact Session.limits (Neutral.session x)
  | fit pattern number => exact Session.limits (Neutral.session x)
  | transform strict number pattern template => exact Session.limits (Neutral.session x)
  | ask s q => exact Session.limits (Quiet.session x)
  | rule place v => exact Session.limits (Neutral.session x)
  | read s document => exact Session.limits (Neutral.session x)
  | load files s path => exact Session.limits (Neutral.session x)
  | command s env? words => exact Session.limits (Quiet.session x)
  | start files => exact Session.limits (Neutral.session x)
  | respond service planId r => exact Session.limits (Quiet.session x)

/-- **So do any events, one after the other.** -/
theorem session_afterAll (x : Exchange) (events : List Event) :
    Session Settings.limits x (afterAll x events) := by
  induction events generalizing x with
  | nil => exact .refl
  | cons e events ih => exact (session x e).trans (ih (after x e))

end Event

/-! ## What a switch with a country code replies -/

namespace Switch

variable {settings settings' : Settings} {s : Switch}
  (hlimits : settings.limits = settings'.limits) (hcode : s.countryCode.isEmpty = false)

include hlimits hcode

/-- Whether a sender is authorized depends on the limits of patterns only. -/
theorem decision_authorizes_of_limits (senderPattern : String) (sender : Option String) :
    decision settings (s.authorizes senderPattern sender) =
      decision settings' (s.authorizes senderPattern sender) := by
  simp only [decision_authorizes, normalize_eq_of_ne _ _ _ hcode, decision_accepts_congr hlimits]

/-- The plan of a route depends on the limits of patterns only. -/
theorem decision_route_of_limits (r : Route) (destination : String) (sender : Option String) :
    decision settings (s.route r destination sender) =
      decision settings' (s.route r destination sender) := by
  simp only [decision_route, normalize_eq_of_ne _ _ _ hcode, decision_accepts_congr hlimits,
    decision_authorizes_of_limits hlimits hcode, decision_address_congr hlimits]

/-- The plan of a call's own route depends on the limits of patterns only. -/
theorem decision_routeCall_of_limits (r : Route) :
    decision settings (s.routeCall r) = decision settings' (s.routeCall r) := by
  simp only [decision_routeCall, decision_completed, normalize_eq_of_ne _ _ _ hcode,
    decision_route_of_limits hlimits hcode]

/-- The plan of a dial plan depends on the limits of patterns only. -/
theorem decision_firstPlan_of_limits (routes : List Route) (destination : String)
    (sender : Option String) :
    decision settings (DialPlan.firstPlan s destination sender routes) =
      decision settings' (DialPlan.firstPlan s destination sender routes) := by
  simp only [DialPlan.decision_firstPlan, decision_route_of_limits hlimits hcode]

end Switch

/-- **A switch with a country code replies what the limits of patterns determine**, whatever else
the settings are and whatever patterns are kept. -/
theorem Question.reply_eq {s : Switch} (hcode : s.countryCode ≠ "") {x y : Exchange}
    (hx : x.Faithful) (hy : y.Faithful) (hlimits : x.settings.limits = y.settings.limits)
    (q : Question) : (q.reply s x).1 = (q.reply s y).1 := by
  have hcountry : s.countryCode.isEmpty = false := by simpa using hcode
  -- two questions that have the same decision under both settings are answered alike
  have hanswer : ∀ {α : Type} (w : Work CallError α) [Neutral w],
      decision x.settings w = decision y.settings w → (w x).1 = (w y).1 := by
    intro α w hw hdecision
    rw [hw.answer x hx, hw.answer y hy, hdecision]
  cases q with
  | normalize number =>
    change Reply.number _ = Reply.number _
    rw [s.normalize_eq_of_ne _ _ hcountry, s.normalize_eq_of_ne _ _ hcountry]
  | classify number pattern => rfl
  | accepts pattern digits =>
    exact congrArg Reply.verdict
      (hanswer (Switch.accepts pattern digits) (Switch.decision_accepts_congr hlimits _ _))
  | authorizes senderPattern sender =>
    exact congrArg Reply.verdict (hanswer (s.authorizes senderPattern sender)
      (Switch.decision_authorizes_of_limits hlimits hcountry _ _))
  | route r destination sender =>
    exact congrArg Reply.plan (hanswer (s.route r destination sender)
      (Switch.decision_route_of_limits hlimits hcountry _ _ _))
  | routeCall r =>
    exact congrArg Reply.plan
      (hanswer (s.routeCall r) (Switch.decision_routeCall_of_limits hlimits hcountry _))
  | routeThrough routes destination sender direction =>
    exact congrArg Reply.plan
      (hanswer (DialPlan.route ⟨routes, s⟩ destination sender direction)
        (Switch.decision_firstPlan_of_limits hlimits hcountry _ _ _))

/-- **A switch that is kept replies as if it had just been set up.** It was set up at some moment of
a session in which the limits of patterns are not changed, with a country code and a strictness of
its own or with those in the settings then, and has got a country code. Whatever happens afterwards,
be it changes of the settings or anything that is asked for, at any two later moments it replies
alike to every question, be it put to the switch itself or to a dial plan that works with it. -/
theorem kept_switch_replies_alike {settings : Settings} {before : List Event} {x : Exchange}
    (hx : Event.afterAll (Exchange.start settings) before = x)
    {countryCode : Option String} {strict : Option Bool}
    (hcode : (Switch.setUp x.settings countryCode strict).countryCode ≠ "")
    (sooner later : List Event) (q : Question) :
    (q.reply (.setUp x.settings countryCode strict)
        (Event.afterAll (Event.afterAll x sooner) later)).1 =
      (q.reply (.setUp x.settings countryCode strict) (Event.afterAll x sooner)).1 := by
  have hstart : Session Settings.limits (Exchange.start settings) x :=
    hx ▸ Event.session_afterAll _ before
  have hsooner : Session Settings.limits (Exchange.start settings) (Event.afterAll x sooner) :=
    hstart.trans (Event.session_afterAll x sooner)
  have hlater := Event.session_afterAll (Event.afterAll x sooner) later
  have hfaithful : (Event.afterAll x sooner).Faithful :=
    hsooner.faithful (fun _ _ h => h) (Exchange.faithful_start settings)
  have hfaithful' := hlater.faithful (fun _ _ h => h) hfaithful
  exact q.reply_eq hcode hfaithful' hfaithful hlater.kept_eq

/-- The country code and the strictness change, and a command is run. -/
theorem kept_switch_replies_alike_countryCode :
    (Question.reply (.setUp {} none none)
        (.routeThrough [{ id := "a", receiverAddress := "1202*" }] "(202) 555-0123" none none)
        (Event.afterAll (Exchange.start {})
          [.change (.countryCode "44"), .change (.strictTemplates false),
           .command ⟨fun _ => .error .missing, "", ""⟩ (fun _ => none) ["check", "a.json"]])).1 =
      .plan (.ok (some
        ⟨.localCall, true, "1202*", "+12025550123", "", .inbound "1202*" none⟩)) := by
  have hx : Event.afterAll (Exchange.start {}) [] = Exchange.start {} := rfl
  have hcode : (Switch.setUp {} none none).countryCode ≠ "" := by decide +kernel
  refine (kept_switch_replies_alike hx hcode [] _ _).trans ?_
  decide +kernel

end CallRouting

import CallRouting.Proofs.Alike
import CallRouting.Proofs.Rooms

/-!
# The commands and the service decide alike

A command and the service stand at different depths when they search for a number, and either may
lack the room that the other one has. What both answer, they answer alike.

* **Agreement** (`Agree`): the two decide alike whenever both do. Only a lack of room keeps one of
  them from a decision, and the one with more room decides whenever the other one does.
* **Questions** (`Translation.agree`): what the two make of one question, each with its own room,
  agrees, for with more room no answer changes.
* **Rules files** (`DialPlan.LoadedFrom`): a rules file that one of them can load is one that the
  other can load too, or there is no room for its nesting (`DialPlan.load_or_lacks`).
* **Together** (`surfaces_agree`): in any two sessions under one configuration.
-/

namespace CallRouting

open CommandLine (Command Outcome Surroundings fitOutcome transformOutcome routeOutcome)
open Service (fitResponse transformResponse routeResponse)
open Exchange (decision Neutral Session)

/-! ## Agreement -/

/-- Whether a command with some settings and the service with others agree, each with the room that
it is left. -/
structure Agree (near far : Settings) (sources : List String)
    (alike : Outcome → Responding → Prop) (o : Outcome) (h : Responding) : Prop where
  /-- What both make something of, they make the same of. -/
  both : o.uncaught = none → (∃ r, h = .ok r) → alike o h
  /-- Malformed patterns take no room. -/
  refused : o.exitCode = 2 ↔ h.Holds 400 []
  command : o.uncaught = none ∨ o = .stopped (.call .tooDeep) ∧ near.LacksRoom sources
  service : (∃ r, h = .ok r) ∨ h = .error .tooDeep ∧ far.LacksRoom sources
  narrower : near.rooms.search ≤ far.rooms.search → o.uncaught = none → ∃ r, h = .ok r
  wider : far.rooms.search ≤ near.rooms.search → (∃ r, h = .ok r) → o.uncaught = none

namespace Translation

variable {α : Type} {t : Translation α} {alike : Outcome → Responding → Prop}
  {near far : Settings} {sources : List String}

/-- **What the two make of one question agrees.** -/
theorem agree {w : Work CallError α} [hw : Roomy Rooms.search (· = CallError.tooDeep) w]
    (hsame : near.configured = far.configured)
    (hnear : t.Serves alike near sources (decision near w))
    (hfar : t.Serves alike far sources (decision far w))
    (hrefused : (t.command (decision near w)).exitCode = 2 ↔
      (t.service (decision far w)).Holds 400 []) :
    Agree near far sources alike (t.command (decision near w)) (t.service (decision far w)) := by
  have hless : near.rooms.search ≤ far.rooms.search →
      Widens (· = .tooDeep) (decision near w) (decision far w) := hw.widens hsame
  have hmore : far.rooms.search ≤ near.rooms.search →
      Widens (· = .tooDeep) (decision far w) (decision near w) := hw.widens hsame.symm
  generalize decision near w = a at *
  generalize decision far w = b at *
  have hstopped : t.command (.error .tooDeep) = .stopped (.call .tooDeep) := t.command_tooDeep
  have hbroken : t.service (.error .tooDeep) = .error .tooDeep := t.service_tooDeep
  have huncaught : (t.command (.error .tooDeep)).uncaught ≠ none := by
    simp [hstopped, Outcome.stopped]
  have hsilent : ¬ ∃ r, t.service (.error .tooDeep) = .ok r := by simp [hbroken]
  cases hnear with
  | lacking hroom =>
    refine ⟨fun h => absurd h huncaught, hrefused, Or.inr ⟨hstopped, hroom⟩, ?_,
      fun _ h => absurd h huncaught, fun hle hr => ?_⟩
    · cases hfar with
      | lacking hroom' => exact Or.inr ⟨hbroken, hroom'⟩
      | said hsaid => exact Or.inl hsaid.responded
    · -- with no more room the service would lack it too
      have hne : b ≠ .error .tooDeep := by
        rintro rfl
        exact hsilent hr
      exact absurd ((hmore hle).eq_of_ne hne).symm hne
  | said hsaid =>
    cases hfar with
    | lacking hroom =>
      refine ⟨fun _ h => absurd h hsilent, hrefused, Or.inl hsaid.caught,
        Or.inr ⟨hbroken, hroom⟩, fun hle _ => ?_, fun _ h => absurd h hsilent⟩
      exact absurd ((hless hle).eq_of_ne hsaid.ne_tooDeep).symm hsaid.ne_tooDeep
    | said hsaid' =>
      -- there was room for both, so both have the answer that takes less of it
      have hanswer : b = a := by
        rcases Nat.le_total near.rooms.search far.rooms.search with hle | hle
        · exact (hless hle).eq_of_ne hsaid.ne_tooDeep
        · exact ((hmore hle).eq_of_ne hsaid'.ne_tooDeep).symm
      subst hanswer
      exact ⟨fun _ _ => hsaid.alike, hrefused, Or.inl hsaid.caught, Or.inl hsaid.responded,
        fun _ _ => hsaid.responded, fun _ _ => hsaid.caught⟩

end Translation

/-! ## Malformed patterns -/

section Refused

variable {near far : Settings} {pattern input template : String} {strict : Bool}

/-- What is asked about a pattern fails for it exactly if it is malformed. -/
theorem Exchange.decision_pattern_bind_eq_iff {settings : Settings} {α : Type}
    {k : Pattern → Except CallError α} (hk : ∀ p fault, k p ≠ .error (.pattern fault))
    {fault : PatternError} :
    (decision settings (Exchange.pattern pattern) >>= k) = .error (.pattern fault) ↔
      Pattern.parse settings.limits pattern = .error fault := by
  rw [decision_pattern]
  cases Pattern.parse settings.limits pattern with
  | error fault' =>
    change Except.error (CallError.pattern fault') = .error (.pattern fault) ↔ _
    simp
  | ok p => exact iff_of_false (hk p fault) (by simp)

/-- A search never fails for the pattern. -/
theorem Exchange.fitTo_ne_pattern (p : Pattern) (number : String) (room : Nat)
    (fault : PatternError) : fitTo p number room ≠ .error (.pattern fault) := by
  intro h
  cases (fitTo_eq_error h).1

/-- Fitting a number is refused alike. -/
theorem refused_fit (h : near.configured = far.configured) :
    (fitOutcome pattern input .json (decision near (Exchange.fit? pattern input))).exitCode = 2 ↔
      (fitResponse (decision far (Exchange.fit? pattern input))).Holds 400 [] := by
  have hcommand : ∀ answer, (fitOutcome pattern input .json answer).exitCode = 2 ↔
      ∃ fault, answer = .error (.pattern fault) := by
    rintro (e | _ | f)
    · simpa [fitOutcome] using exitCode_callFailure_eq_two_iff e
    all_goals simp [fitOutcome, Outcome.printed]
  have hservice : ∀ answer, (fitResponse answer).Holds 400 [] ↔
      ∃ fault, answer = .error (.pattern fault) := by
    rintro (e | f)
    · simpa [fitResponse] using holds_ofCallError_refused_iff e
    · simp [fitResponse]
  have hk : ∀ settings : Settings, ∀ p fault,
      Exchange.fitTo p input settings.limits.room ≠ .error (.pattern fault) :=
    fun _ p => Exchange.fitTo_ne_pattern p _ _
  simp only [hcommand, hservice, Exchange.decision_fit?,
    Exchange.decision_pattern_bind_eq_iff (hk near), Exchange.decision_pattern_bind_eq_iff (hk far),
    Settings.parse_eq_of_configured h]

/-- Writing a number anew is refused alike. -/
theorem refused_transform (h : near.configured = far.configured) :
    (transformOutcome input pattern .json
        (decision near (Exchange.transform strict input pattern template))).exitCode = 2 ↔
      (transformResponse
        (decision far (Exchange.transform strict input pattern template))).Holds 400 [] := by
  have hcommand : ∀ answer, (transformOutcome input pattern .json answer).exitCode = 2 ↔
      ∃ fault, answer = .error (.pattern fault) := by
    rintro (e | result)
    · simpa [transformOutcome] using exitCode_callFailure_eq_two_iff e
    · simp [transformOutcome, Outcome.printed]
  have hservice : ∀ answer, (transformResponse answer).Holds 400 [] ↔
      ∃ fault, answer = .error (.pattern fault) := by
    rintro (e | result)
    · simpa [transformResponse] using holds_ofCallError_refused_iff e
    · simp [transformResponse]
  have hk : ∀ settings : Settings, ∀ p fault,
      (Exchange.fitTo p input settings.limits.room >>=
        Exchange.rendered pattern input template strict p) ≠ .error (.pattern fault) := by
    intro settings p fault hfault
    rcases Exchange.bind_eq_error_iff.mp hfault with hfit | ⟨f, -, hrender⟩
    · exact Exchange.fitTo_ne_pattern p _ _ _ hfit
    · cases f with
      | none => cases hrender
      | some f =>
        rw [Exchange.rendered] at hrender
        cases hwritten : render strict f.groups f.rest (some p.hasRest) template <;>
          rw [hwritten] at hrender <;> cases hrender
  simp only [hcommand, hservice, Exchange.decision_transform,
    Exchange.decision_pattern_bind_eq_iff (hk near), Exchange.decision_pattern_bind_eq_iff (hk far),
    Settings.parse_eq_of_configured h]

/-- Routing through a dial plan with sound routes is never refused. -/
theorem refused_route {plan : DialPlan} {checked : Bool}
    (hsound : ∀ r ∈ plan.routes, Route.Sound far.limits checked r)
    (hstrict : plan.switch.strict = true → checked = true) (destination : String)
    (sender : Option String) (direction : Option Direction) (planId planId' : String) :
    (routeOutcome destination planId .json
        (decision near (plan.route destination sender direction))).exitCode = 2 ↔
      (routeResponse destination planId'
        (decision far (plan.route destination sender direction))).Holds 400 [] := by
  refine iff_of_false ?_ ?_
  · rcases decision near (plan.route destination sender direction) with ⟨_ | _ | _ | _⟩ | _ | _ <;>
      simp [routeOutcome, CommandLine.callFailure, Outcome.failed, Outcome.stopped, Outcome.printed]
  · cases hanswer : decision far (plan.route destination sender direction) with
    | error e =>
      change ¬ Responding.Holds (Response.ofCallError e) 400 []
      rw [holds_ofCallError_refused_iff]
      rcases DialPlan.decision_route_eq_error hsound hstrict hanswer with
        ⟨fault, rfl⟩ | ⟨rfl, -⟩ <;> simp
    | ok plan? => cases plan? <;> simp [routeResponse, Response.failure]

end Refused

/-! ## Rules files -/

namespace DialPlan

/-- Whether a dial plan is the one that was loaded from a rules file, and no half of a pair of units
stands alone in that file. -/
structure LoadedFrom (files : Files) (rules : String) (e : Exchange) (plan : DialPlan) : Prop where
  loaded : (load files (.setUp e.settings none none) rules e).1 = .ok plan
  paired : ∀ bytes text, files (Path.plain rules) = .ok bytes →
    Text.Utf8.decode bytes = .ok text → Json.isPaired text = true

/-- What was loaded is the decision under the settings in force. -/
theorem LoadedFrom.decision_eq {files : Files} {rules : String} {e : Exchange} {plan : DialPlan}
    (h : LoadedFrom files rules e plan) (he : e.Faithful) :
    decision e.settings (load files (.setUp e.settings none none) rules) = .ok plan :=
  (Neutral.answer e he).symm.trans h.loaded

/-- A rules file that holds a textual document is loaded if the document is in order. -/
theorem LoadedFrom.of_bytes {files : Files} {rules : String} {e : Exchange} {s : Switch}
    {plan : DialPlan} {document : Json} (he : e.Faithful) (hpath : Path.isImpossible rules = false)
    (hfile : files (Path.plain rules) = .ok document.bytes)
    (htextual : Json.isTextual e.settings.rooms.document document = true)
    (hswitch : Switch.setUp e.settings none none = s)
    (hdocument : decision e.settings (ofDocument s document) = .ok (.ok plan)) :
    LoadedFrom files rules e plan := by
  refine ⟨?_, ?_⟩
  · rw [Neutral.answer e he, hswitch]
    exact decision_load_of_bytes hpath hfile htextual hdocument
  · intro bytes text hbytes htext
    rw [hfile] at hbytes
    obtain rfl := Except.ok.inj hbytes
    rw [Json.bytes,
      Text.Utf8.decode_asciiBytes (Json.all_allows_chars .ascii 0 _ _ htextual)] at htext
    obtain rfl := Except.ok.inj htext
    exact Json.isPaired_line .ascii htextual

/-- A document with one inbound rule is textual. -/
theorem isTextual_singleRule (source : String) (room : Nat) :
    Json.isTextual (room + 3) (singleRule source) = true := by
  simp [singleRule, Json.isTextual, Json.itemsTextual, Json.fieldsTextual]

variable {s t : Settings} {files : Files} {path : String} {plan : DialPlan}

/-- Under one configuration switches are set up alike. -/
theorem setUp_eq_of_configured (h : s.configured = t.configured) :
    Switch.setUp s none none = Switch.setUp t none none :=
  Settings.eq_of_configured h (fun s => Switch.setUp s none none) fun _ => rfl

/-- **What could be loaded once can be loaded again**, or there is less room. -/
theorem load_or_lacks (h : s.configured = t.configured)
    (hload : decision s (load files (.setUp s none none) path) = .ok plan) :
    decision t (load files (.setUp t none none) path) = .ok plan ∨
      decision t (load files (.setUp t none none) path) = .error .tooDeep ∧
        t.rooms.document < s.rooms.document := by
  rw [← setUp_eq_of_configured h]
  rcases Nat.lt_or_ge t.rooms.document s.rooms.document with hless | hmore
  · rcases widens_load h.symm hless.le files (.setUp s none none) path with ⟨_, rfl, ht⟩ | hs
    · exact Or.inr ⟨ht, hless⟩
    · exact Or.inl (hs.symm.trans hload)
  · exact Or.inl ((widens_load h hmore files _ path).eq_ok hload)

/-- The routes of a dial plan that was loaded are sound, however much room there is later. -/
theorem sound_of_configured (h : s.configured = t.configured)
    (hload : decision s (load files (.setUp s none none) path) = .ok plan) :
    (∀ r ∈ plan.routes, Route.Sound t.limits t.strictTemplates r) ∧
      (plan.switch.strict = true → t.strictTemplates = true) := by
  -- the room for the document of the one, all else as it is for the other
  have hsame : s.configured =
      Settings.configured { t with rooms := { t.rooms with document := s.rooms.document } } := h
  have hagain := (widens_load hsame le_rfl files (.setUp s none none) path).eq_ok hload
  obtain ⟨hswitch, hsound⟩ := sound_of_load hagain
  refine ⟨hsound, ?_⟩
  rw [hswitch, setUp_eq_of_configured h]
  exact id

end DialPlan

/-! ## Together -/

/-- A session under one configuration keeps the patterns faithful. -/
theorem Exchange.Session.faithful_of_configured {x y : Exchange}
    (h : Session Settings.configured x y) (hx : x.Faithful) : y.Faithful :=
  h.faithful_of_parse (fun _ _ heq => Settings.parse_eq_of_configured heq) hx

/-- **The commands and the service decide alike.** The configuration is fixed, the rules file is one
that can be loaded, and whatever was asked before and however much room there is for either, a
number is fitted, written anew and routed alike. -/
theorem surfaces_agree {settings : Settings} {x y : Exchange}
    (hx : Session Settings.configured (Exchange.start settings) x)
    (hy : Session Settings.configured (Exchange.start settings) y)
    (s : Surroundings) (planId : String) :
    (∀ pattern input, input ≠ "-" →
      ∀ (service : Service) (r : Request), r.Asks y.settings.rooms.body (.fit pattern input) →
        Agree x.settings y.settings [pattern] FitAlike
          ((Command.fit pattern input).run s .json x).1 (service.respond planId r y).1) ∧
    (∀ input pattern template lenient, input ≠ "-" →
      ∀ (service : Service) (r : Request), r.Asks y.settings.rooms.body
          (.transform input pattern template (if lenient then some false else none)) →
        Agree x.settings y.settings [pattern] TransformAlike
          ((Command.transform input pattern template lenient).run s .json x).1
          (service.respond planId r y).1) ∧
    ∀ rules plan e, Session Settings.configured (Exchange.start settings) e →
      DialPlan.LoadedFrom s.files rules e plan →
      (settings.rulesFile = rules → rules ≠ "" →
        ∀ z, Session Settings.configured (Exchange.start settings) z →
          (Service.start s.files z).1 = .ok ⟨some plan⟩ ∨
            (Service.start s.files z).1 = .error (.load .tooDeep) ∧
              z.settings.rooms.document < e.settings.rooms.document) ∧
      ∀ destination sender direction (r : Request),
        r.Asks y.settings.rooms.body (.route destination sender direction) →
        ((Command.route rules destination sender direction).run s .json x).1 =
              .stopped (.load .tooDeep) ∧
            x.settings.rooms.document < e.settings.rooms.document ∨
          Agree x.settings y.settings plan.sources RouteAlike
            ((Command.route rules destination sender direction).run s .json x).1
            (Service.respond ⟨some plan⟩ planId r y).1 := by
  have hstart : (Exchange.start settings).Faithful := Exchange.faithful_start settings
  have hxf : x.Faithful := hx.faithful_of_configured hstart
  have hyf : y.Faithful := hy.faithful_of_configured hstart
  have hsame : x.settings.configured = y.settings.configured := hx.kept_eq.trans hy.kept_eq.symm
  refine ⟨fun pattern input hinput service r hr => ?_,
    fun input pattern template lenient hinput service r hr => ?_,
    fun rules plan e he hplan => ?_⟩
  · rw [CommandLine.fst_run_fit hxf hinput, Service.respond_of_asks hr, Service.fst_answer_fit hyf]
    exact Translation.agree hsame (serves_fit _ _ _) (serves_fit _ _ _) (refused_fit hsame)
  · have hstrict : (if lenient then some false else none).getD y.settings.strictTemplates =
        (!lenient && x.settings.strictTemplates) := by
      rw [Settings.eq_of_configured hsame (·.strictTemplates) fun _ => rfl]
      cases lenient <;> rfl
    rw [CommandLine.fst_run_transform hxf hinput, Service.respond_of_asks hr,
      Service.fst_answer_transform hyf, hstrict]
    exact Translation.agree hsame (serves_transform _ _ _ _ _) (serves_transform _ _ _ _ _)
      (refused_transform hsame)
  · have hload := hplan.decision_eq (he.faithful_of_configured hstart)
    refine ⟨?_, fun destination sender direction r hr => ?_⟩
    · rintro rfl hrules z hz
      have hzf : z.Faithful := hz.faithful_of_configured hstart
      have hfile : z.settings.rulesFile = settings.rulesFile :=
        Settings.eq_of_configured hz.kept_eq (·.rulesFile) fun _ => rfl
      obtain ⟨hpossible, bytes, -, hbytes, -⟩ := DialPlan.decision_load_eq_ok_iff.mp hload
      rw [← hfile] at hrules hpossible hbytes hload
      rw [Neutral.answer z hzf, Service.decision_start hrules hpossible hbytes]
      rcases DialPlan.load_or_lacks (he.kept_eq.trans hz.kept_eq.symm) hload with
        hagain | ⟨hlacks, hless⟩
      · rw [hagain]
        exact Or.inl rfl
      · rw [hlacks]
        exact Or.inr ⟨rfl, hless⟩
    · have hex : e.settings.configured = x.settings.configured := he.kept_eq.trans hx.kept_eq.symm
      rcases DialPlan.load_or_lacks hex hload with hagain | ⟨hlacks, hless⟩
      · right
        rw [CommandLine.fst_run_route hxf ((Neutral.answer x hxf).trans hagain),
          Service.respond_of_asks hr, Service.fst_answer_route hyf]
        obtain ⟨hnear, hnearStrict⟩ := DialPlan.sound_of_configured hex hload
        obtain ⟨hfar, hfarStrict⟩ := DialPlan.sound_of_configured (hex.trans hsame) hload
        exact Translation.agree hsame (serves_route hnear hnearStrict _ _ _ _ _)
          (serves_route hfar hfarStrict _ _ _ _ _) (refused_route hfar hfarStrict _ _ _ _ _)
      · left
        exact ⟨CommandLine.fst_run_of_load_error rfl ((Neutral.answer x hxf).trans hlacks), hless⟩

/-- Requests that a rules file for one area code is about, and a number to fit; the commands have
less room than the service. -/
theorem surfaces_agree_areaCode :
    let settings : Settings := { rulesFile := "rules.json" }
    let x : Exchange :=
      { Exchange.start settings with settings := { settings with rooms := ⟨979, 979, 954⟩ } }
    let s : Surroundings := ⟨fun _ => .ok (DialPlan.singleRule "1202*").bytes, "", ""⟩
    Agree x.settings settings ["Nxx"] FitAlike ((Command.fit "Nxx" "202").run s .json x).1
        (Service.respond ⟨none⟩ "" (.posting "/match"
          [("pattern", .str "Nxx"), ("input", .str "202")]) (Exchange.start settings)).1 ∧
      (Service.start s.files (Exchange.start settings)).1 =
        .ok ⟨some (DialPlan.singlePlan ⟨"1", true⟩ "1202*")⟩ ∧
      Agree x.settings settings ["1202*", "*"] RouteAlike
        ((Command.route "rules.json" "(202) 555-0123" none none).run s .json x).1
        (Service.respond ⟨some (DialPlan.singlePlan ⟨"1", true⟩ "1202*")⟩ "" (.posting "/route"
          [("destination", .str "(202) 555-0123")]) (Exchange.start settings)).1 := by
  intro settings x s
  have hstart : Session Settings.configured (Exchange.start settings) (Exchange.start settings) :=
    .refl
  have hx : Session Settings.configured (Exchange.start settings) x := .single (.configure _ _ rfl)
  have hfaithful := hx.faithful_of_configured (Exchange.faithful_start settings)
  have hplan : DialPlan.LoadedFrom s.files "rules.json" x
      (DialPlan.singlePlan ⟨"1", true⟩ "1202*") :=
    .of_bytes (s := ⟨"1", true⟩) hfaithful (by decide +kernel) rfl
      (DialPlan.isTextual_singleRule "1202*" _)
      (by decide +kernel) (by decide +kernel)
  obtain ⟨hfit, -, hroute⟩ := surfaces_agree hx hstart s ""
  obtain ⟨hstarts, hroutes⟩ := hroute "rules.json" _ x hx hplan
  have hfits := hfit "Nxx" "202" (by decide +kernel) ⟨none⟩ _ (Request.asks_fit _ "Nxx" "202")
  refine ⟨hfits, ?_, ?_⟩
  · exact (hstarts rfl (by decide +kernel) _ hstart).resolve_right
      fun h => absurd h.2 (by decide)
  · exact (hroutes "(202) 555-0123" none none _ (Request.asks_route _ _)).resolve_left
      fun h => absurd h.2 (by decide)

/-- A rules file for a number of three thousand digits, and no room for the search when that number
is called: the command ends as it does when there is no route, and the service does not say so. -/
theorem surfaces_agree_tooDeep :
    ∃ (settings : Settings) (s : Surroundings) (plan : DialPlan) (destination : String)
      (r : Request), settings.rulesFile = "rules.json" ∧ settings.rooms = {} ∧
      DialPlan.LoadedFrom s.files "rules.json" (Exchange.start settings) plan ∧
      (Service.start s.files (Exchange.start settings)).1 = .ok ⟨some plan⟩ ∧
      r.Asks settings.rooms.body (.route destination none none) ∧
      ((Command.route "rules.json" destination none none).run s .json
        (Exchange.start settings)).1.exitCode = 1 ∧
      ¬ Responding.Holds (Service.respond ⟨some plan⟩ "" r (Exchange.start settings)).1 404
        [("code", .str "NO_ROUTE")] := by
  have hlen : ((3000 : Nat) : Int) ≤
      ({ maxPatternLength := 10000, rulesFile := "rules.json" } : Settings).maxPatternLength := by
    decide
  obtain ⟨hdocument, hroute⟩ :=
    DialPlan.decision_singlePlan (n := 3000) (by decide) (by decide) hlen
  generalize String.ofList (List.replicate 3000 '1') = number at *
  have hsetUp : Switch.setUp { maxPatternLength := 10000, rulesFile := "rules.json" } none none =
      ⟨"1", true⟩ := by decide +kernel
  obtain ⟨settings, hsettings⟩ : ∃ settings : Settings,
      settings = { maxPatternLength := 10000, rulesFile := "rules.json" } := ⟨_, rfl⟩
  obtain ⟨files, hfiles⟩ : ∃ files : Files, ∀ path,
      files path = .ok (DialPlan.singleRule number).bytes := ⟨fun _ => .ok _, fun _ => rfl⟩
  rw [← hsettings] at hdocument hroute hsetUp
  have hrules : settings.rulesFile = "rules.json" := by rw [hsettings]
  have hrooms : settings.rooms = {} := by rw [hsettings]
  have hstart : (Exchange.start settings).Faithful := Exchange.faithful_start settings
  have htextual : Json.isTextual settings.rooms.document (DialPlan.singleRule number) = true := by
    rw [hrooms]
    exact DialPlan.isTextual_singleRule number _
  have hplan : DialPlan.LoadedFrom files "rules.json" (Exchange.start settings)
      (DialPlan.singlePlan ⟨"1", true⟩ number) :=
    .of_bytes hstart (by decide +kernel) (hfiles _) htextual hsetUp hdocument
  have hasks : (Request.posting "/route" [("destination", .str number)]).Asks settings.rooms.body
      (.route number none none) := by
    rw [hrooms]
    exact Request.asks_route _ number
  refine ⟨settings, ⟨files, "", ""⟩, _, number, _, hrules, hrooms, hplan, ?_, hasks, ?_, ?_⟩
  · have hload : decision settings (DialPlan.load files (.setUp settings none none)
        settings.rulesFile) = .ok (DialPlan.singlePlan ⟨"1", true⟩ number) := by
      rw [hrules]
      exact hplan.decision_eq hstart
    have hstarted : decision settings (Service.start files) =
        .ok ⟨some (DialPlan.singlePlan ⟨"1", true⟩ number)⟩ := by
      rw [Service.decision_start (by rw [hrules]; decide +kernel) (by rw [hrules]; decide +kernel)
        (hfiles _), hload]
      rfl
    exact (Neutral.answer _ hstart).trans hstarted
  · rw [CommandLine.fst_run_route (s := ⟨files, "", ""⟩) hstart hplan.loaded]
    change (routeOutcome number "" .json (decision settings _)).exitCode = 1
    rw [hroute]
    rfl
  · rw [Service.respond_of_asks (x := Exchange.start settings) hasks,
      Service.fst_answer_route hstart]
    change ¬ Responding.Holds (routeResponse number "" (decision settings _)) 404 _
    rw [hroute]
    exact Responding.not_holds_error

end CallRouting

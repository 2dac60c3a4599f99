import CallRouting.Proofs.Loading

/-!
# A dial plan that was loaded can be relied on

Rules are checked when they are read, so that routing does not come upon a malformed pattern or a
template that never fits.

* **One route** (`Switch.decision_route_eq_error`): a sound route fails in two ways only. A pattern
  has more atoms than there is room for (`Route.IsDeep`), or the template has a run that differs in
  length from a group whose length varies (`Route.Misfits`).
* **A dial plan** (`DialPlan.loaded_plan_is_safe`): in any session, a document is refused with
  findings or makes a dial plan, and for as long as the limits and the strictness of the check stay,
  the plan fails in these two ways only (`DialPlan.LeftOpen`).
-/

namespace CallRouting

open Exchange (decision decision_bind Neutral Session fitTo)

/-! ## Ways to fail -/

/-- Whether a pattern of a route has more atoms than there is room for. -/
def Route.IsDeep (limits : PatternLimits) (r : Route) : Prop :=
  ∃ source ∈ [r.pattern, r.senderAddress], ∃ p,
    Pattern.parse limits source = .ok p ∧ limits.room < p.atoms.length

/-- Whether a fault of a template is that a run differs in length from what a group holds that has
an atom with a quantifier. -/
def Route.Misfits (limits : PatternLimits) (r : Route) (digits : String) (e : TemplateError) :
    Prop :=
  ∃ template p f, r.template? = some template ∧ Pattern.parse limits r.pattern = .ok p ∧
    p.fit? digits = some f ∧ ∃ (i run : Nat) (group : String),
      (placeholderRuns template)[i]? = some run ∧ f.groups[i]? = some group ∧
        group.length ≠ run ∧ e = .length i run group ∧
        ∃ a ∈ p.members i, a.piece.quantifier? ≠ none

/-! ## Patterns of routes -/

/-- A number pattern of a route is the text itself. -/
theorem RoutePattern.ofString_eq_pattern {text source : String}
    (h : ofString text = .pattern source) : source = text := by
  unfold ofString at h
  split at h
  · split_ifs at h
    cases h
    rfl
  · cases h
    rfl

/-- A pattern of one of the kinds with a star is no number pattern. -/
theorem RoutePattern.isOpen_eq_false {text source : String} (h : ofString text = .pattern source) :
    isOpen text = false := by
  rw [isOpen, h]

namespace Exchange

/-- The search for a number fails only if the pattern has more atoms than there is room for. -/
theorem fitTo_eq_error {p : Pattern} {number : String} {room : Nat} {e : CallError}
    (h : fitTo p number room = .error e) : e = .tooDeep ∧ room < p.atoms.length := by
  unfold fitTo at h
  split_ifs at h with hdeep
  refine ⟨(Except.error.inj h).symm, ?_⟩
  by_contra hfew
  rw [Pattern.tooDeep_eq_false (Nat.not_lt.mp hfew)] at hdeep
  cases hdeep

/-- What is found is a fit. -/
theorem fitTo_eq_ok_some {p : Pattern} {number : String} {room : Nat} {f : Pattern.Fit}
    (h : fitTo p number room = .ok (some f)) : p.fit? number = some f := by
  unfold fitTo at h
  split_ifs at h
  exact Except.ok.inj h

end Exchange

namespace Switch

variable {settings : Settings} {s : Switch} {r : Route} {pattern digits : String} {e : CallError}

/-- A pattern that can be read fails only if it has more atoms than there is room for. -/
theorem decision_accepts_eq_error (h : RoutePattern.Readable settings.limits pattern)
    (he : decision settings (accepts pattern digits) = .error e) :
    e = .tooDeep ∧ ∃ p, Pattern.parse settings.limits pattern = .ok p ∧
      settings.limits.room < p.atoms.length := by
  rw [decision_accepts] at he
  cases hkind : RoutePattern.ofString pattern with
  | all | stem ds =>
    rw [hkind] at he
    cases he
  | pattern source =>
    rcases h with hopen | ⟨p, hp⟩
    · rw [RoutePattern.isOpen_eq_false hkind] at hopen
      cases hopen
    rw [hkind, RoutePattern.ofString_eq_pattern hkind] at he
    simp only [Exchange.decision_fits, Exchange.decision_fit?, Exchange.decision_pattern, hp,
      Except.mapError, Exchange.ok_bind] at he
    cases hfit : fitTo p digits settings.limits.room with
    | ok answer =>
      rw [hfit] at he
      cases he
    | error e' =>
      rw [hfit] at he
      cases he
      obtain ⟨rfl, hdeep⟩ := Exchange.fitTo_eq_error hfit
      exact ⟨rfl, p, hp, hdeep⟩

/-- A number pattern that accepts digits fits them. -/
theorem decision_accepts_eq_true (hopen : RoutePattern.isOpen pattern = false)
    (h : decision settings (accepts pattern digits) = .ok true) {p : Pattern}
    (hp : Pattern.parse settings.limits pattern = .ok p) :
    ∃ f, fitTo p digits settings.limits.room = .ok (some f) := by
  rw [decision_accepts] at h
  cases hkind : RoutePattern.ofString pattern with
  | all | stem ds =>
    rw [RoutePattern.isOpen, hkind] at hopen
    cases hopen
  | pattern source =>
    rw [hkind, RoutePattern.ofString_eq_pattern hkind] at h
    simp only [Exchange.decision_fits, Exchange.decision_fit?, Exchange.decision_pattern, hp,
      Except.mapError, Exchange.ok_bind] at h
    cases hfit : fitTo p digits settings.limits.room with
    | error e =>
      rw [hfit] at h
      cases h
    | ok answer =>
      rw [hfit] at h
      cases answer with
      | none => cases h
      | some f => exact ⟨f, rfl⟩

/-- A sender pattern that can be read fails only if it has more atoms than there is room for. -/
theorem decision_authorizes_eq_error {sender : Option String}
    (h : RoutePattern.Readable settings.limits pattern)
    (he : decision settings (s.authorizes pattern sender) = .error e) :
    e = .tooDeep ∧ ∃ p, Pattern.parse settings.limits pattern = .ok p ∧
      settings.limits.room < p.atoms.length := by
  rw [decision_authorizes] at he
  split_ifs at he
  exact decision_accepts_eq_error h he

/-- **Writing a number anew fails at a varying group only**, if the template passed the check and
the route applies to the number. -/
theorem decision_address_eq_error {checked : Bool} {normal : String}
    (hr : r.Sound settings.limits checked) (hstrict : s.strict = true → checked = true)
    (h : decision settings (accepts r.pattern (Number.digits normal)) = .ok true)
    (he : decision settings (s.address r normal) = .error e) :
    s.strict = true ∧ ∃ te, e = .template te ∧
      r.Misfits settings.limits (Number.digits normal) te := by
  rw [decision_address] at he
  cases htemplate : r.template? with
  | none =>
    rw [htemplate] at he
    cases he
  | some template =>
    rw [htemplate] at he
    simp only at he
    by_cases hopen : RoutePattern.isOpen r.pattern = true
    · rw [if_pos hopen] at he
      cases he
    rw [if_neg hopen] at he
    obtain ⟨p, hp, hcheck⟩ := hr.template template htemplate
    obtain ⟨f, hf⟩ := decision_accepts_eq_true (Bool.eq_false_iff.mpr hopen) h hp
    have hfit := Exchange.fitTo_eq_ok_some hf
    simp only [Exchange.decision_transform, Exchange.decision_pattern, hp, hf, Except.mapError,
      Exchange.ok_bind, Exchange.rendered] at he
    cases hrender : render s.strict f.groups f.rest (some p.hasRest) template with
    | ok text =>
      rw [hrender] at he
      cases he
    | error te =>
      rw [hrender] at he
      cases he
      obtain ⟨hs, i, run, group, hrun, hgroup, hne, hte, hvaries⟩ :=
        render_error_of_checkRuns hp hcheck hstrict hfit hrender
      exact ⟨hs, te, rfl, template, p, f, htemplate, hp, hfit, i, run, group, hrun, hgroup, hne,
        hte, hvaries⟩

/-- **How a sound route fails.** -/
theorem decision_route_eq_error {checked : Bool} {destination : String} {sender : Option String}
    (hr : r.Sound settings.limits checked) (hstrict : s.strict = true → checked = true)
    (he : decision settings (s.route r destination sender) = .error e) :
    e = .tooDeep ∧ r.IsDeep settings.limits ∨
      s.strict = true ∧
        decision settings
          (accepts r.pattern (Number.digits (s.normalize settings destination))) = .ok true ∧
        ∃ te, e = .template te ∧
          r.Misfits settings.limits (Number.digits (s.normalize settings destination)) te := by
  rw [decision_route] at he
  cases happlies : decision settings
      (accepts r.pattern (Number.digits (s.normalize settings destination))) with
  | error e' =>
    rw [happlies] at he
    cases he
    obtain ⟨rfl, p, hp, hdeep⟩ := decision_accepts_eq_error hr.receiver happlies
    exact Or.inl ⟨rfl, r.pattern, by simp, p, hp, hdeep⟩
  | ok applies =>
    rw [happlies] at he
    cases applies with
    | false => cases he
    | true =>
      rw [Exchange.ok_bind, if_pos rfl] at he
      cases hauth : decision settings (s.authorizes r.senderAddress sender) with
      | error e' =>
        rw [hauth] at he
        cases he
        obtain ⟨rfl, p, hp, hdeep⟩ := decision_authorizes_eq_error hr.sender hauth
        exact Or.inl ⟨rfl, r.senderAddress, by simp, p, hp, hdeep⟩
      | ok isAuthorized =>
        rw [hauth, Exchange.ok_bind] at he
        cases haddress : decision settings
            (s.address r (s.normalize settings destination)) with
        | ok address =>
          rw [haddress] at he
          cases he
        | error e' =>
          rw [haddress] at he
          cases he
          obtain ⟨hs, hte⟩ := decision_address_eq_error hr hstrict happlies haddress
          exact Or.inr ⟨hs, rfl, hte⟩

end Switch

/-! ## Dial plans -/

/-- What a session has to keep of the settings for a loaded dial plan to stay good: the limits of
patterns, and whether templates are checked strictly. -/
def Settings.checks (settings : Settings) : PatternLimits × Bool :=
  (settings.limits, settings.strictTemplates)

/-- Whether the runs of the template of a route refer to groups without quantifiers only. -/
def Route.RunsAreFixed (limits : PatternLimits) (r : Route) : Prop :=
  ∀ template p, r.template? = some template → Pattern.parse limits r.pattern = .ok p →
    ∀ i < (placeholderRuns template).length, ∀ a ∈ p.members i, a.piece.quantifier? = none

/-- A template all of whose runs are fixed never misfits. -/
theorem Route.RunsAreFixed.not_misfits {limits : PatternLimits} {r : Route} {digits : String}
    {e : TemplateError} (h : r.RunsAreFixed limits) : ¬ r.Misfits limits digits e := by
  rintro ⟨template, p, f, htemplate, hp, -, i, run, group, hrun, -, -, -, a, ha, hq⟩
  exact hq (h template p htemplate hp i (List.getElem?_eq_some_iff.mp hrun).1 a ha)

/-- No pattern has more atoms than there is room for if the limit of lengths keeps within the
room. -/
theorem Route.not_isDeep {limits : PatternLimits} (h : limits.maxLength ≤ limits.room)
    (r : Route) : ¬ r.IsDeep limits := by
  rintro ⟨source, -, p, hp, hdeep⟩
  have hlen := Pattern.length_atoms_le_of_parse hp
  omega

namespace DialPlan

/-- A candidate is a route of the dial plan. -/
theorem mem_routes_of_mem_candidates {plan : DialPlan} {direction : Option Direction} {r : Route}
    (h : r ∈ plan.candidates direction) : r ∈ plan.routes := by
  cases direction with
  | none => exact h
  | some d => exact List.mem_of_mem_filter h

/-- The failures that the checks of a dial plan leave open, when a number is routed. -/
inductive LeftOpen (limits : PatternLimits) (plan : DialPlan) (x : Exchange) (destination : String)
    (sender : Option String) (direction : Option Direction) : CallError → Prop
  /-- A pattern of a candidate has more atoms than there is room for. -/
  | tooDeep {r : Route} (candidate : r ∈ plan.candidates direction) (deep : r.IsDeep limits) :
      LeftOpen limits plan x destination sender direction .tooDeep
  /-- Templates are strict, and the template of the first route that applies has a run that differs
  in length from what a group with a quantifier holds. -/
  | misfit {before after : List Route} {r : Route} {e : TemplateError}
      (strict : plan.switch.strict = true)
      (split : plan.candidates direction = before ++ r :: after)
      (skipped : ∀ r' ∈ before, (plan.switch.route r' destination sender x).1 = .ok none)
      (applies : (Switch.accepts r.pattern
        (Number.digits (plan.switch.normalize x.settings destination)) x).1 = .ok true)
      (misfits : r.Misfits limits
        (Number.digits (plan.switch.normalize x.settings destination)) e) :
      LeftOpen limits plan x destination sender direction (.template e)

variable {plan : DialPlan} {x : Exchange} {checked : Bool} {destination : String}
  {sender : Option String} {direction : Option Direction} {e : CallError}

/-- **How a dial plan with sound routes fails.** -/
theorem leftOpen_of_route_eq_error (hx : x.Faithful)
    (hsound : ∀ r ∈ plan.routes, Route.Sound x.settings.limits checked r)
    (hstrict : plan.switch.strict = true → checked = true)
    (he : (plan.route destination sender direction x).1 = .error e) :
    plan.LeftOpen x.settings.limits x destination sender direction e := by
  rw [Neutral.answer x hx] at he
  obtain ⟨before, r, after, hsplit, hbefore, hr⟩ := decision_firstPlan_eq_error _ _ _ _ he
  have hmem : r ∈ plan.candidates direction := by
    rw [hsplit]
    simp
  rcases Switch.decision_route_eq_error (hsound r (mem_routes_of_mem_candidates hmem)) hstrict hr
    with ⟨rfl, hdeep⟩ | ⟨hs, happlies, te, rfl, hmisfits⟩
  · exact .tooDeep hmem hdeep
  · refine .misfit hs hsplit (fun r' hr' => ?_) ?_ hmisfits
    · rw [Neutral.answer x hx]
      exact hbefore r' hr'
    · rw [Neutral.answer x hx]
      exact happlies

/-- If the runs of all templates are fixed, a pattern that has too many atoms is all that is left
open. -/
theorem LeftOpen.of_runsAreFixed {limits : PatternLimits}
    (h : plan.LeftOpen limits x destination sender direction e)
    (hfixed : ∀ r ∈ plan.routes, r.RunsAreFixed limits) :
    e = .tooDeep ∧ ∃ r ∈ plan.candidates direction, r.IsDeep limits := by
  cases h with
  | tooDeep hr hdeep => exact ⟨rfl, _, hr, hdeep⟩
  | @misfit before after r te _ hsplit _ _ hmisfits =>
    have hmem : r ∈ plan.candidates direction := by
      rw [hsplit]
      simp
    exact absurd hmisfits (hfixed r (mem_routes_of_mem_candidates hmem)).not_misfits

/-- **A dial plan that was loaded is safe.** In every session that keeps the limits of patterns and
the strictness of the check, and with a switch that is strict only if the check is, every document
is refused with findings or makes a dial plan. At any later time the dial plan fails only in ways
that the checks leave open. If the runs of its templates are fixed, it fails for lack of room only,
and not at all if the limit of lengths keeps within the room. -/
theorem loaded_plan_is_safe (settings : Settings) (s : Switch) (document : Json) {x : Exchange}
    (hstrict : s.strict = true → settings.strictTemplates = true)
    (hx : Session Settings.checks (Exchange.start settings) x) :
    ∃ c, (ofDocument s document x).1 = .ok c ∧ ∀ plan, c = .ok plan → plan.switch = s ∧
      ∀ z, Session Settings.checks (ofDocument s document x).2 z →
      ∀ destination sender direction,
        (∀ e, (plan.route destination sender direction z).1 = .error e →
          plan.LeftOpen settings.limits z destination sender direction e) ∧
        ((∀ r ∈ plan.routes, r.RunsAreFixed settings.limits) →
          ∀ e, (plan.route destination sender direction z).1 = .error e →
            e = .tooDeep ∧ ∃ r ∈ plan.candidates direction, r.IsDeep settings.limits) ∧
        ((∀ r ∈ plan.routes, r.RunsAreFixed settings.limits) →
          settings.maxPatternLength ≤ settings.limits.room →
            ∃ answer, (plan.route destination sender direction z).1 = .ok answer) := by
  have hlimits : ∀ t u : Settings, t.checks = u.checks → t.limits = u.limits := by
    intro t u h
    exact congrArg Prod.fst h
  have hload : Neutral (ofDocument s document) := inferInstance
  have hxf : x.Faithful := hx.faithful hlimits (Exchange.faithful_start settings)
  have hxc : x.settings.checks = settings.checks := hx.kept_eq
  obtain ⟨c, hc, hgood⟩ := reads_ofDocument x.settings s document
  refine ⟨c, (hload.answer x hxf).trans hc, ?_⟩
  intro plan hplan
  obtain ⟨rfl, hsound⟩ := hgood plan hplan
  refine ⟨rfl, ?_⟩
  intro z hz destination sender direction
  have hzf : z.Faithful := hz.faithful hlimits (hload.faithful hxf)
  have hzc : z.settings.checks = settings.checks := by
    rw [hz.kept_eq, hload.settings_eq, hxc]
  have hzl : z.settings.limits = settings.limits := hlimits _ _ hzc
  have hchecked : x.settings.strictTemplates = settings.strictTemplates := congrArg Prod.snd hxc
  rw [hlimits _ _ (hxc.trans hzc.symm), hchecked] at hsound
  have hopen : ∀ e, (plan.route destination sender direction z).1 = .error e →
      plan.LeftOpen settings.limits z destination sender direction e := by
    intro e he
    rw [← hzl]
    exact leftOpen_of_route_eq_error hzf hsound hstrict he
  refine ⟨hopen, fun hfixed e he => (hopen e he).of_runsAreFixed hfixed, ?_⟩
  intro hfixed hroom
  cases hanswer : (plan.route destination sender direction z).1 with
  | ok answer => exact ⟨answer, rfl⟩
  | error e =>
    obtain ⟨-, r, -, hdeep⟩ := (hopen e hanswer).of_runsAreFixed hfixed
    exact absurd hdeep (Route.not_isDeep hroom r)

/-- A document with one outbound rule, the template of which goes with its pattern. -/
def outboundRule : Json :=
  .obj [("routes", .arr [.obj [("id", .str "local"), ("direction", .str "outbound"),
    ("receiver_address", .str "NxxXXXX"), ("transform", .str "+1 (202) $$$-$$$$")]])]

/-- The dial plan of that document. -/
def outboundPlan (s : Switch) : DialPlan :=
  ⟨[Rule.toRoute ⟨"local", "", .outbound, "SIP", "", "*", "NxxXXXX", some "+1 (202) $$$-$$$$"⟩], s⟩

/-- A seven-digit number gets its area code, whoever calls and whatever is called. -/
theorem loaded_plan_is_safe_outbound :
    (ofDocument ⟨"1", true⟩ outboundRule (Exchange.start {})).1 =
        .ok (.ok (outboundPlan ⟨"1", true⟩)) ∧
      ∀ destination sender direction, ∃ answer,
        ((outboundPlan ⟨"1", true⟩).route destination sender direction
          (ofDocument ⟨"1", true⟩ outboundRule (Exchange.start {})).2).1 = .ok answer := by
  have hload : (ofDocument ⟨"1", true⟩ outboundRule (Exchange.start {})).1 =
      .ok (.ok (outboundPlan ⟨"1", true⟩)) := by decide +kernel
  obtain ⟨c, hc, hsafe⟩ :=
    loaded_plan_is_safe {} ⟨"1", true⟩ outboundRule (fun _ => rfl) .refl
  rw [hload] at hc
  refine ⟨hload, fun destination sender direction => ?_⟩
  obtain ⟨-, hsafe⟩ := hsafe _ (Except.ok.inj hc).symm
  refine (hsafe _ .refl destination sender direction).2.2 ?_ (by decide)
  have hplain : (Pattern.parse ({} : Settings).limits "NxxXXXX").toOption.any
      (·.atoms.all (·.piece.quantifier? = none)) = true := by decide +kernel
  intro r hr template p _ hp i _ a ha
  rw [List.mem_singleton.mp hr] at hp
  rw [show Pattern.parse ({} : Settings).limits "NxxXXXX" = .ok p from hp] at hplain
  simpa using List.all_eq_true.mp hplain a (List.mem_of_mem_filter ha)

/-- A document with one inbound rule, without a template. -/
def singleRule (source : String) : Json :=
  .obj [("routes", .arr [.obj [("id", .str "a"), ("receiver_address", .str source)]])]

/-- The dial plan of that document. -/
def singlePlan (s : Switch) (source : String) : DialPlan :=
  ⟨[Rule.toRoute ⟨"a", "", .inbound, "SIP", "", "*", source, none⟩], s⟩

/-- The document is accepted if its pattern is a number pattern that can be read. -/
theorem decision_singleRule {settings : Settings} (s : Switch) {source : String} {p : Pattern}
    (hopen : RoutePattern.isOpen source = false)
    (hp : Pattern.parse settings.limits source = .ok p) :
    decision settings (ofDocument s (singleRule source)) = .ok (.ok (singlePlan s source)) := by
  have hrule : decision settings (Rule.ofJson [.field "routes", .index 0]
      (.obj [("id", .str "a"), ("receiver_address", .str source)])) =
      .ok (.ok ⟨"a", "", .inbound, "SIP", "", "*", source, none⟩) := by
    have hsender : decision settings (liftM (Rule.patternAt
        (.obj [("id", .str "a"), ("receiver_address", .str source)])
        [.field "routes", .index 0] "sender_address" (.ok "*")) :
        Work PatternError (Checked String)) = .ok (.ok "*") := rfl
    have hreceiver : decision settings (liftM (Rule.checkPattern
        [.field "routes", .index 0, .field "receiver_address"] source) :
        Work PatternError (Checked String)) = .ok (.ok source) := by
      rw [Rule.decision_checkPattern, hp, hopen]
      rfl
    simp only [Rule.ofJson, decision_bind, hsender, Exchange.ok_bind]
    change decision settings (liftM (Rule.checkPattern
        [.field "routes", .index 0, .field "receiver_address"] source) :
        Work PatternError (Checked String)) >>= _ = _
    rw [hreceiver]
    rfl
  have hrules : decision settings (rulesFrom 0
      [.obj [("id", .str "a"), ("receiver_address", .str source)]]) =
      .ok (.ok [⟨"a", "", .inbound, "SIP", "", "*", source, none⟩]) := by
    simp only [rulesFrom, decision_bind, hrule, Exchange.ok_bind]
    rfl
  change decision settings (rulesFrom 0
    [.obj [("id", .str "a"), ("receiver_address", .str source)]] >>= _) = _
  rw [decision_bind, hrules]
  rfl

/-- More digits than a national number has are their own normal form. -/
theorem digits_normalize_replicate (settings : Settings) {n : Nat} (hn : 11 < n) :
    Number.digits ((⟨"1", true⟩ : Switch).normalize settings
      (String.ofList (List.replicate n '1'))) = String.ofList (List.replicate n '1') := by
  have hbare : Number.bare (List.replicate n '1') = List.replicate n '1' :=
    List.filter_replicate_of_pos (by decide)
  have hhead : (List.replicate n '1').head? ≠ some '+' := by
    cases n with
    | zero => omega
    | succ n => simp [List.replicate_succ]
  have hlength : (List.replicate n '1').length ≠ Number.nationalLength := by
    rw [List.length_replicate, Number.nationalLength]
    omega
  have hlength' : (List.replicate n '1').length ≠ Number.nationalLength + ['1'].length := by
    rw [List.length_replicate, Number.nationalLength, List.length_singleton]
    omega
  have hnormal : (⟨"1", true⟩ : Switch).normalize settings (String.ofList (List.replicate n '1')) =
      String.ofList (List.replicate n '1') := by
    rw [Switch.normalize_eq_of_ne _ _ _ (by decide)]
    change String.ofList (Number.addPrefix ['1'] (Number.bare (String.ofList _).toList)) = _
    rw [String.toList_ofList, hbare, Number.addPrefix, if_neg hhead, if_neg hlength,
      if_neg fun h => hlength' h.1]
  rw [hnormal, Number.digits, String.toList_ofList, List.filter_replicate_of_pos (by decide)]

/-- Digits are a number pattern. -/
theorem ofString_replicate {n : Nat} (hn : n ≠ 0) :
    RoutePattern.ofString (String.ofList (List.replicate n '1')) =
      .pattern (String.ofList (List.replicate n '1')) := by
  obtain ⟨m, rfl⟩ := Nat.exists_eq_succ_of_ne_zero hn
  unfold RoutePattern.ofString
  rw [String.toList_ofList, List.reverse_replicate, List.replicate_succ]
  rfl

/-- A number pattern of too many digits is loaded, and there is no room for the search when that
number is called. -/
theorem decision_singlePlan {settings : Settings} {n : Nat}
    (hlong : 11 < n) (hn : settings.limits.room < n)
    (hlen : (n : Int) ≤ settings.maxPatternLength) :
    decision settings (ofDocument ⟨"1", true⟩ (singleRule (String.ofList (List.replicate n '1')))) =
      .ok (.ok (singlePlan ⟨"1", true⟩ (String.ofList (List.replicate n '1')))) ∧
      decision settings ((singlePlan ⟨"1", true⟩ (String.ofList (List.replicate n '1'))).route
        (String.ofList (List.replicate n '1')) none none) = .error .tooDeep := by
  have hroom : (n : Int) ≤ settings.limits.maxLength := hlen
  obtain ⟨p, hparse, -, hdeep⟩ :=
    Pattern.fitTo_replicate (c := '1') (by decide) (by decide) hn hroom
  have hkind := ofString_replicate (n := n) (by omega)
  have hdigits := digits_normalize_replicate settings hlong
  generalize String.ofList (List.replicate n '1') = number at *
  refine ⟨decision_singleRule _ (RoutePattern.isOpen_eq_false hkind) hparse, ?_⟩
  have haccepts : decision settings (Switch.accepts number number) = .error .tooDeep := by
    rw [Switch.decision_accepts, hkind]
    simp only [Exchange.decision_fits, Exchange.decision_fit?, Exchange.decision_pattern, hparse,
      Except.mapError, Exchange.ok_bind, hdeep]
    rfl
  have hroute : decision settings (Switch.route ⟨"1", true⟩
      (Rule.toRoute ⟨"a", "", .inbound, "SIP", "", "*", number, none⟩) number none) =
      .error .tooDeep := by
    rw [Switch.decision_route, hdigits]
    change decision settings (Switch.accepts number number) >>= _ = _
    rw [haccepts]
    rfl
  change decision settings (firstPlan ⟨"1", true⟩ number none
    [Rule.toRoute ⟨"a", "", .inbound, "SIP", "", "*", number, none⟩]) = _
  rw [decision_firstPlan_cons, hroute]
  rfl

/-- A dial plan without templates for a pattern of three thousand digits, and no room for the search
when that number is called. -/
theorem loaded_plan_is_safe_tooDeep :
    ∃ settings : Settings, settings.rooms = {} ∧ settings.strictTemplates = true ∧
      ∃ plan : DialPlan,
      (ofDocument ⟨"1", true⟩ (singleRule (String.ofList (List.replicate 3000 '1')))
        (Exchange.start settings)).1 = .ok (.ok plan) ∧
      (∀ r ∈ plan.routes, r.RunsAreFixed settings.limits) ∧
      (plan.route (String.ofList (List.replicate 3000 '1')) none none
        (ofDocument ⟨"1", true⟩ (singleRule (String.ofList (List.replicate 3000 '1')))
          (Exchange.start settings)).2).1 = .error .tooDeep := by
  have hlen : ((3000 : Nat) : Int) ≤
      ({ maxPatternLength := 10000 } : Settings).maxPatternLength := by decide
  obtain ⟨hload, hroute⟩ := decision_singlePlan (n := 3000) (by decide) (by decide) hlen
  generalize String.ofList (List.replicate 3000 '1') = number at *
  have hstart := Exchange.faithful_start { maxPatternLength := 10000 }
  have hneutral : Neutral (ofDocument ⟨"1", true⟩ (singleRule number)) := inferInstance
  refine ⟨_, rfl, rfl, _, (hneutral.answer _ hstart).trans hload, ?_, ?_⟩
  · intro r hr template p' htemplate
    rw [List.mem_singleton.mp hr] at htemplate
    cases htemplate
  · rw [Neutral.answer _ (hneutral.faithful hstart), hneutral.settings_eq]
    exact hroute

end DialPlan

end CallRouting

import CallRouting.Proofs.Rendering
import CallRouting.Proofs.Routing
import CallRouting.Proofs.Shape

/-!
# What comes of a route

A route is asked in three places: whether its pattern stands for the digits, whether its sender
pattern lets the sender through, and how the number is written anew. Each can fail, and the first
failure ends the question.

* **A pattern** (`RoutePattern.Answers`, `RoutePattern.answers_accepts`): it is malformed, there is
  no room for it, it covers the digits, or it does not; one of these four, and the answer says
  which.
* **A template** (`Switch.decision_address_eq_error_iff`): once the pattern covers the digits,
  writing the number fails exactly if a run does not go with its group. That the number does not fit
  is no longer possible.
* **A route** (`Switch.Fails`, `Switch.route_outcomes`): in any session that keeps the limits, a
  route fails exactly in the ways listed, makes no plan exactly if its pattern does not cover the
  digits, and makes a plan otherwise. A call's own route does the same for the numbers of the call.
-/

namespace CallRouting

open Exchange (decision Neutral Session)

/-! ## Patterns of routes -/

namespace RoutePattern

variable {limits : PatternLimits} {pattern digits : String}

/-- Whether a route's pattern, read under limits, stands for digits. -/
def Covers (limits : PatternLimits) (pattern digits : String) : Prop :=
  match ofString pattern with
  | .all => True
  | .stem ds => ds <+: digits.toList
  | .pattern source =>
    ∃ p, Pattern.parse limits source = .ok p ∧ Pattern.Cuttable p.pieces digits.toList

/-- Whether a number pattern of a route is malformed. -/
def Malformed (limits : PatternLimits) (pattern : String) (e : PatternError) : Prop :=
  isOpen pattern = false ∧ Pattern.parse limits pattern = .error e

/-- Whether a number pattern of a route has more atoms than there is room for, and those that there
is room for can take a beginning of the digits. -/
def Overruns (limits : PatternLimits) (pattern digits : String) : Prop :=
  isOpen pattern = false ∧ ∃ p, Pattern.parse limits pattern = .ok p ∧
    limits.room < p.atoms.length ∧ Pattern.Begins (p.pieces.take limits.room) digits.toList

/-- What the answer of a pattern says about it. -/
inductive Answers (limits : PatternLimits) (pattern digits : String) :
    Except CallError Bool → Prop
  | covers (covers : Covers limits pattern digits) (room : ¬ Overruns limits pattern digits) :
      Answers limits pattern digits (.ok true)
  | passes (wellFormed : ∀ e, ¬ Malformed limits pattern e)
      (room : ¬ Overruns limits pattern digits) (passes : ¬ Covers limits pattern digits) :
      Answers limits pattern digits (.ok false)
  | malformed {e : PatternError} (malformed : Malformed limits pattern e) :
      Answers limits pattern digits (.error (.pattern e))
  | tooDeep (overruns : Overruns limits pattern digits) :
      Answers limits pattern digits (.error .tooDeep)

/-- The kind of a text that is no pattern with a star. -/
theorem ofString_of_isOpen_eq_false (h : isOpen pattern = false) :
    ofString pattern = .pattern pattern := by
  cases hkind : ofString pattern with
  | all | stem =>
    rw [isOpen, hkind] at h
    cases h
  | pattern source => rw [ofString_eq_pattern hkind]

/-- A number pattern covers what can be cut among its pieces. -/
theorem covers_iff {p : Pattern} (hopen : isOpen pattern = false)
    (hp : Pattern.parse limits pattern = .ok p) :
    Covers limits pattern digits ↔ Pattern.Cuttable p.pieces digits.toList := by
  rw [Covers, ofString_of_isOpen_eq_false hopen]
  constructor
  · rintro ⟨q, hq, hcut⟩
    rwa [← Except.ok.inj (hp.symm.trans hq)] at hcut
  · intro hcut
    exact ⟨p, hp, hcut⟩

/-- A number pattern overruns if there is no room for the search. -/
theorem overruns_iff {p : Pattern} (hopen : isOpen pattern = false)
    (hp : Pattern.parse limits pattern = .ok p) :
    Overruns limits pattern digits ↔
      limits.room < p.atoms.length ∧ Pattern.Begins (p.pieces.take limits.room) digits.toList := by
  constructor
  · rintro ⟨-, q, hq, hdeep⟩
    rwa [← Except.ok.inj (hp.symm.trans hq)] at hdeep
  · intro hdeep
    exact ⟨hopen, p, hp, hdeep⟩

/-- A pattern that can be read is not malformed. -/
theorem not_malformed_of_parse {p : Pattern} (hp : Pattern.parse limits pattern = .ok p)
    (e : PatternError) : ¬ Malformed limits pattern e := by
  rintro ⟨-, he⟩
  rw [hp] at he
  cases he

/-- There is no question of room for a malformed pattern. -/
theorem Malformed.not_overruns {e : PatternError} (h : Malformed limits pattern e) :
    ¬ Overruns limits pattern digits := by
  rintro ⟨-, p, hp, -⟩
  exact not_malformed_of_parse hp e h

/-- A malformed pattern covers no digits. -/
theorem Malformed.not_covers {e : PatternError} (h : Malformed limits pattern e) :
    ¬ Covers limits pattern digits := by
  rw [Covers, ofString_of_isOpen_eq_false h.1]
  rintro ⟨p, hp, -⟩
  exact not_malformed_of_parse hp e h

/-- A pattern with a star is not malformed, and there is room for it. -/
theorem wellFormed_of_isOpen (hopen : isOpen pattern = true) :
    (∀ e, ¬ Malformed limits pattern e) ∧ ¬ Overruns limits pattern digits := by
  have hclosed : ¬ isOpen pattern = false := by
    rw [hopen]
    decide
  exact ⟨fun e h => hclosed h.1, fun h => hclosed h.1⟩

/-- The answer of a pattern with a star. -/
theorem answers_of_isOpen (settings : Settings) (hopen : isOpen pattern = true) :
    Answers settings.limits pattern digits
      (decision settings (Switch.accepts pattern digits)) := by
  obtain ⟨hwell, hroom⟩ := wellFormed_of_isOpen hopen
  rw [Switch.decision_accepts]
  cases hkind : ofString pattern with
  | all =>
    refine .covers ?_ hroom
    rw [Covers, hkind]
    trivial
  | stem ds =>
    have hcovers : Covers settings.limits pattern digits ↔ ds.isPrefixOf digits.toList = true := by
      rw [Covers, hkind]
      exact List.isPrefixOf_iff_prefix.symm
    change Answers _ _ _ (.ok (ds.isPrefixOf digits.toList))
    cases hstarts : ds.isPrefixOf digits.toList with
    | true => exact .covers (hcovers.mpr hstarts) hroom
    | false =>
      apply Answers.passes hwell hroom
      intro hcover
      rw [hcovers.mp hcover] at hstarts
      cases hstarts
  | pattern source =>
    rw [isOpen_eq_false hkind] at hopen
    cases hopen

/-- The answer of a number pattern. -/
theorem answers_of_isOpen_eq_false (settings : Settings) (hclosed : isOpen pattern = false) :
    Answers settings.limits pattern digits
      (decision settings (Switch.accepts pattern digits)) := by
  rw [Switch.decision_accepts, ofString_of_isOpen_eq_false hclosed]
  change Answers _ _ _ (decision settings (Exchange.fits pattern digits))
  cases hp : Pattern.parse settings.limits pattern with
  | error e =>
    have hfails : decision settings (Exchange.fits pattern digits) = .error (.pattern e) := by
      rw [Exchange.decision_fits, Exchange.decision_fit?, Exchange.decision_pattern, hp]
      rfl
    rw [hfails]
    exact .malformed ⟨hclosed, hp⟩
  | ok p =>
    have hcovers : Covers settings.limits pattern digits ↔ p.fits digits = true :=
      (covers_iff hclosed hp).trans (Pattern.fits_iff (Pattern.restLast_of_parse hp) digits).symm
    have hoverruns : Overruns settings.limits pattern digits ↔
        p.tooDeep settings.limits.room digits = true := by
      rw [overruns_iff hclosed hp, Pattern.tooDeep_iff (Pattern.restLast_of_parse hp)]
      simp only [Pattern.Begins, Pattern.Cuttable, exists_and_left]
    rw [decision_fits_of_parse hp]
    split_ifs with hdeep
    · exact .tooDeep (hoverruns.mpr hdeep)
    · have hroom := mt hoverruns.mp hdeep
      cases hfits : p.fits digits with
      | true => exact .covers (hcovers.mpr hfits) hroom
      | false =>
        apply Answers.passes (not_malformed_of_parse hp) hroom
        intro hcover
        rw [hcovers.mp hcover] at hfits
        cases hfits

/-- **The answer of a pattern tells which of the four cases it is in.** -/
theorem answers_accepts (settings : Settings) (pattern digits : String) :
    Answers settings.limits pattern digits
      (decision settings (Switch.accepts pattern digits)) := by
  cases hopen : isOpen pattern with
  | true => exact answers_of_isOpen settings hopen
  | false => exact answers_of_isOpen_eq_false settings hopen

/-- There is one answer only. -/
theorem Answers.unique {a b : Except CallError Bool} (ha : Answers limits pattern digits a)
    (hb : Answers limits pattern digits b) : a = b := by
  cases ha with
  | covers hcovers hroom =>
    cases hb with
    | covers => rfl
    | passes _ _ hpasses => exact absurd hcovers hpasses
    | malformed he => exact absurd hcovers he.not_covers
    | tooDeep hdeep => exact absurd hdeep hroom
  | passes hwell hroom hpasses =>
    cases hb with
    | covers hcovers => exact absurd hcovers hpasses
    | passes => rfl
    | malformed he => exact absurd he (hwell _)
    | tooDeep hdeep => exact absurd hdeep hroom
  | malformed he =>
    cases hb with
    | covers hcovers => exact absurd hcovers he.not_covers
    | passes hwell => exact absurd he (hwell _)
    | malformed he' => rw [Except.error.inj (he.2.symm.trans he'.2)]
    | tooDeep hdeep => exact absurd hdeep he.not_overruns
  | tooDeep hdeep =>
    cases hb with
    | covers _ hroom => exact absurd hdeep hroom
    | passes _ hroom => exact absurd hdeep hroom
    | malformed he => exact absurd hdeep he.not_overruns
    | tooDeep => rfl

/-- What is answered is what the case calls for. -/
theorem decision_accepts_eq_iff {settings : Settings} {a : Except CallError Bool} :
    decision settings (Switch.accepts pattern digits) = a ↔
      Answers settings.limits pattern digits a := by
  have hanswers := answers_accepts settings pattern digits
  constructor
  · rintro rfl
    exact hanswers
  · exact hanswers.unique

/-- **When a pattern is found to stand for digits.** -/
theorem decision_accepts_eq_true_iff {settings : Settings} :
    decision settings (Switch.accepts pattern digits) = .ok true ↔
      Covers settings.limits pattern digits ∧ ¬ Overruns settings.limits pattern digits := by
  rw [decision_accepts_eq_iff]
  constructor
  · intro h
    cases h with
    | covers hcovers hroom => exact ⟨hcovers, hroom⟩
  · rintro ⟨hcovers, hroom⟩
    exact .covers hcovers hroom

end RoutePattern

/-! ## Templates of routes -/

/-- Whether a fault is what is to be reported when the template of a route is written with what a
number pattern captures of digits. -/
def Route.Breaks (limits : PatternLimits) (strict : Bool) (r : Route) (digits : String)
    (e : TemplateError) : Prop :=
  RoutePattern.isOpen r.pattern = false ∧ ∃ template p f i, r.template? = some template ∧
    Pattern.parse limits r.pattern = .ok p ∧ p.fit? digits = some f ∧
      FirstMisfit strict (placeholderRuns template) f.groups i ∧
        Reported (placeholderRuns template) f.groups i e

namespace Switch

open RoutePattern (Answers Covers Malformed Overruns answers_accepts decision_accepts_eq_iff)

variable {settings : Settings} {s : Switch} {r : Route} {destination : String}
  {sender : Option String} {e : CallError}

/-- A number pattern that stands for digits was read, there is room for it, and the digits fit. -/
theorem exists_fit_of_accepts {pattern digits : String}
    (hopen : RoutePattern.isOpen pattern = false)
    (h : decision settings (accepts pattern digits) = .ok true) :
    ∃ p f, Pattern.parse settings.limits pattern = .ok p ∧
      p.atoms.length ≤ settings.limits.room ∧ p.fit? digits = some f := by
  cases hp : Pattern.parse settings.limits pattern with
  | error e =>
    have hmalformed : Answers settings.limits pattern digits (.error (.pattern e)) :=
      .malformed ⟨hopen, hp⟩
    rw [decision_accepts_eq_iff.mpr hmalformed] at h
    cases h
  | ok p =>
    rw [decision_accepts, RoutePattern.ofString_of_isOpen_eq_false hopen] at h
    obtain ⟨hfew, f, hf⟩ := Pattern.exists_fit?_of_decision hp h
    exact ⟨p, f, rfl, hfew, hf⟩

/-- **When writing a number anew fails**, once the pattern of the route stands for its digits. -/
theorem decision_address_eq_error_iff {normal : String}
    (h : decision settings (accepts r.pattern (Number.digits normal)) = .ok true) :
    decision settings (s.address r normal) = .error e ↔
      ∃ fault, e = .template fault ∧
        r.Breaks settings.limits s.strict (Number.digits normal) fault := by
  rw [decision_address]
  cases htemplate : r.template? with
  | none =>
    constructor
    · intro he
      cases he
    · rintro ⟨fault, -, -, template, p, f, i, hsome, -⟩
      rw [htemplate] at hsome
      cases hsome
  | some template =>
    cases hopen : RoutePattern.isOpen r.pattern with
    | true =>
      constructor
      · intro he
        cases he
      · rintro ⟨fault, -, hclosed, -⟩
        rw [hopen] at hclosed
        cases hclosed
    | false =>
      obtain ⟨p, f, hp, hfew, hfit⟩ := exists_fit_of_accepts hopen h
      change decision settings (Exchange.transform _ _ _ template) = _ ↔ _
      rw [Pattern.decision_transform_of_fit? hp hfew hfit]
      constructor
      · intro he
        cases hrender : render s.strict f.groups f.rest (some p.hasRest) template with
        | ok text =>
          rw [hrender] at he
          cases he
        | error fault =>
          rw [hrender] at he
          obtain ⟨i, hfirst, hreported⟩ := (render_eq_error_iff _ _ _ _ _).mp hrender
          exact ⟨fault, (Except.error.inj he).symm, hopen, template, p, f, i, htemplate, hp, hfit,
            hfirst, hreported⟩
      · rintro ⟨fault, rfl, -, template', p', f', i, htemplate', hp', hfit', hfirst, hreported⟩
        obtain rfl := Option.some.inj (htemplate.symm.trans htemplate')
        obtain rfl := Except.ok.inj (hp.symm.trans hp')
        obtain rfl := Option.some.inj (hfit.symm.trans hfit')
        rw [(render_eq_error_iff _ _ _ _ _).mpr ⟨i, hfirst, hreported⟩]
        rfl

/-! ## Routes -/

/-- The digits of a number as the patterns of routes see them. -/
def digitsOf (s : Switch) (settings : Settings) (number : String) : String :=
  Number.digits (s.normalize settings number)

/-- Whether the pattern of a route stands for the digits of a number, and there is room to find that
out. -/
def Applies (s : Switch) (settings : Settings) (r : Route) (destination : String) : Prop :=
  Covers settings.limits r.pattern (s.digitsOf settings destination) ∧
    ¬ Overruns settings.limits r.pattern (s.digitsOf settings destination)

/-- The failures of the sender pattern of a route. It is asked about senders that are known only,
and not if it is empty. -/
inductive SenderFails (s : Switch) (settings : Settings) (r : Route) (sender : Option String) :
    CallError → Prop
  | pattern {e : PatternError} (named : r.senderAddress ≠ "") (known : sender.getD "" ≠ "")
      (malformed : Malformed settings.limits r.senderAddress e) :
      SenderFails s settings r sender (.pattern e)
  | tooDeep (named : r.senderAddress ≠ "") (known : sender.getD "" ≠ "")
      (overruns : Overruns settings.limits r.senderAddress
        (s.digitsOf settings (sender.getD ""))) :
      SenderFails s settings r sender .tooDeep

/-- The failures of a route. -/
inductive Fails (s : Switch) (settings : Settings) (r : Route) (destination : String)
    (sender : Option String) : CallError → Prop
  /-- The pattern of the route is malformed. -/
  | pattern {e : PatternError} (malformed : Malformed settings.limits r.pattern e) :
      Fails s settings r destination sender (.pattern e)
  /-- There is no room for the pattern of the route. -/
  | tooDeep (overruns : Overruns settings.limits r.pattern (s.digitsOf settings destination)) :
      Fails s settings r destination sender .tooDeep
  /-- The route applies, and its sender pattern fails. -/
  | sender {e : CallError} (applies : s.Applies settings r destination)
      (fails : s.SenderFails settings r sender e) : Fails s settings r destination sender e
  /-- The route applies, its sender pattern does not fail, and its template does not go with what
  the pattern captures. -/
  | template {e : TemplateError} (applies : s.Applies settings r destination)
      (admitted : ∀ e, ¬ s.SenderFails settings r sender e)
      (breaks : r.Breaks settings.limits s.strict (s.digitsOf settings destination) e) :
      Fails s settings r destination sender (.template e)

/-- The numbers that a call's own route carries: the one that is called, and the caller. -/
inductive Carries (r : Route) : String → String → Prop
  | inbound {leg : InboundLeg} {c : InboundCall} (h : r.leg = .inbound leg (some c)) :
      Carries r c.calledNumber c.callerId
  | outbound {leg : OutboundLeg} {c : OutboundCall} (h : r.leg = .outbound leg (some c)) :
      Carries r c.destinationNumber c.callerId

/-- **When a sender pattern fails.** -/
theorem decision_authorizes_eq_error_iff :
    decision settings (s.authorizes r.senderAddress sender) = .error e ↔
      s.SenderFails settings r sender e := by
  have hasked : decision settings (s.authorizes r.senderAddress sender) = .error e ↔
      r.senderAddress ≠ "" ∧ sender.getD "" ≠ "" ∧
        decision settings (accepts r.senderAddress (s.digitsOf settings (sender.getD ""))) =
          .error e := by
    rw [decision_authorizes]
    by_cases hempty : r.senderAddress = ""
    · simp [hempty]
    by_cases hstar : r.senderAddress = "*"
    · have hall : decision settings (accepts "*" (s.digitsOf settings (sender.getD ""))) =
          .ok true := rfl
      simp [hstar, hall]
    by_cases hknown : sender.getD "" = ""
    · simp [hempty, hstar, hknown]
    · simp [hempty, hstar, hknown, digitsOf]
  rw [hasked]
  constructor
  · rintro ⟨hnamed, hknown, he⟩
    cases decision_accepts_eq_iff.mp he with
    | malformed hmalformed => exact .pattern hnamed hknown hmalformed
    | tooDeep hdeep => exact .tooDeep hnamed hknown hdeep
  · rintro (⟨hnamed, hknown, hmalformed⟩ | ⟨hnamed, hknown, hdeep⟩)
    · exact ⟨hnamed, hknown, decision_accepts_eq_iff.mpr (.malformed hmalformed)⟩
    · exact ⟨hnamed, hknown, decision_accepts_eq_iff.mpr (.tooDeep hdeep)⟩

/-- Whether a route applies is what its pattern answers. -/
theorem decision_accepts_pattern_iff :
    decision settings (accepts r.pattern (s.digitsOf settings destination)) = .ok true ↔
      s.Applies settings r destination :=
  RoutePattern.decision_accepts_eq_true_iff

/-- What is asked of a route, one after the other, fails where the first of it does. -/
theorem decision_route_eq_error_iff_of_parts :
    decision settings (s.route r destination sender) = .error e ↔
      decision settings (accepts r.pattern (s.digitsOf settings destination)) = .error e ∨
        s.Applies settings r destination ∧
          (decision settings (s.authorizes r.senderAddress sender) = .error e ∨
            (∃ isAuthorized, decision settings (s.authorizes r.senderAddress sender) =
              .ok isAuthorized) ∧
            decision settings (s.address r (s.normalize settings destination)) = .error e) := by
  rw [decision_route, Exchange.bind_eq_error_iff, ← decision_accepts_pattern_iff]
  refine or_congr_right ?_
  constructor
  · rintro ⟨applies, happlies, he⟩
    cases applies with
    | false => cases he
    | true =>
      refine ⟨happlies, ?_⟩
      rw [if_pos rfl, Exchange.bind_eq_error_iff] at he
      rcases he with he | ⟨isAuthorized, hauthorized, he⟩
      · exact Or.inl he
      · rw [Exchange.bind_eq_error_iff] at he
        rcases he with he | ⟨address, -, he⟩
        · exact Or.inr ⟨⟨isAuthorized, hauthorized⟩, he⟩
        · cases he
  · rintro ⟨happlies, he⟩
    refine ⟨true, happlies, ?_⟩
    rw [if_pos rfl, Exchange.bind_eq_error_iff]
    rcases he with he | ⟨⟨isAuthorized, hauthorized⟩, he⟩
    · exact Or.inl he
    · exact Or.inr ⟨isAuthorized, hauthorized, Exchange.bind_eq_error_iff.mpr (Or.inl he)⟩

/-- Either the sender pattern of a route fails, or there is an answer. -/
theorem exists_decision_authorizes_iff :
    (∃ isAuthorized, decision settings (s.authorizes r.senderAddress sender) = .ok isAuthorized) ↔
      ∀ e, ¬ s.SenderFails settings r sender e := by
  constructor
  · rintro ⟨isAuthorized, h⟩ e hfails
    rw [decision_authorizes_eq_error_iff.mpr hfails] at h
    cases h
  · intro h
    cases hanswer : decision settings (s.authorizes r.senderAddress sender) with
    | ok isAuthorized => exact ⟨isAuthorized, rfl⟩
    | error e => exact absurd (decision_authorizes_eq_error_iff.mp hanswer) (h e)

/-- **When a route fails.** -/
theorem decision_route_eq_error_iff :
    decision settings (s.route r destination sender) = .error e ↔
      s.Fails settings r destination sender e := by
  rw [decision_route_eq_error_iff_of_parts, exists_decision_authorizes_iff,
    decision_authorizes_eq_error_iff, decision_accepts_eq_iff]
  constructor
  · rintro (hpattern | ⟨happlies, hsender | ⟨hadmitted, haddress⟩⟩)
    · cases hpattern with
      | malformed hmalformed => exact .pattern hmalformed
      | tooDeep hdeep => exact .tooDeep hdeep
    · exact .sender happlies hsender
    · obtain ⟨fault, rfl, hbreaks⟩ :=
        (decision_address_eq_error_iff (decision_accepts_pattern_iff.mpr happlies)).mp haddress
      exact .template happlies hadmitted hbreaks
  · intro h
    cases h with
    | pattern hmalformed => exact Or.inl (.malformed hmalformed)
    | tooDeep hdeep => exact Or.inl (.tooDeep hdeep)
    | sender happlies hsender => exact Or.inr ⟨happlies, Or.inl hsender⟩
    | template happlies hadmitted hbreaks =>
      have haddress := (decision_address_eq_error_iff
        (decision_accepts_pattern_iff.mpr happlies)).mpr ⟨_, rfl, hbreaks⟩
      exact Or.inr ⟨happlies, Or.inr ⟨hadmitted, haddress⟩⟩

/-- **When a route makes no plan.** -/
theorem decision_route_eq_none_iff :
    decision settings (s.route r destination sender) = .ok none ↔
      (∀ e, ¬ Malformed settings.limits r.pattern e) ∧
        ¬ Overruns settings.limits r.pattern (s.digitsOf settings destination) ∧
        ¬ Covers settings.limits r.pattern (s.digitsOf settings destination) := by
  have hpasses : decision settings (s.route r destination sender) = .ok none ↔
      decision settings (accepts r.pattern (s.digitsOf settings destination)) = .ok false := by
    rw [decision_route, Exchange.bind_eq_ok_iff]
    constructor
    · rintro ⟨applies, happlies, h⟩
      cases applies with
      | false => exact happlies
      | true =>
        rw [if_pos rfl, Exchange.bind_eq_ok_iff] at h
        obtain ⟨isAuthorized, -, h⟩ := h
        obtain ⟨address, -, h⟩ := Exchange.bind_eq_ok_iff.mp h
        cases h
    · intro h
      exact ⟨false, h, rfl⟩
  rw [hpasses, decision_accepts_eq_iff]
  constructor
  · intro h
    cases h with
    | passes hwell hroom hpasses => exact ⟨hwell, hroom, hpasses⟩
  · rintro ⟨hwell, hroom, hpasses⟩
    exact .passes hwell hroom hpasses

/-- **When a route makes a plan.** -/
theorem exists_decision_route_iff :
    (∃ plan, decision settings (s.route r destination sender) = .ok (some plan)) ↔
      s.Applies settings r destination ∧ ∀ e, ¬ s.Fails settings r destination sender e := by
  constructor
  · rintro ⟨plan, h⟩
    have hnone : ∀ e, ¬ s.Fails settings r destination sender e := by
      intro e he
      rw [decision_route_eq_error_iff.mpr he] at h
      cases h
    refine ⟨?_, hnone⟩
    cases haccepts : decision settings
        (accepts r.pattern (s.digitsOf settings destination)) with
    | error e =>
      exact absurd (decision_route_eq_error_iff.mp
        (decision_route_eq_error_iff_of_parts.mpr (Or.inl haccepts))) (hnone e)
    | ok applies =>
      cases applies with
      | true => exact decision_accepts_pattern_iff.mp haccepts
      | false =>
        rw [decision_route, ← digitsOf, haccepts] at h
        cases h
  · rintro ⟨happlies, hnone⟩
    cases hanswer : decision settings (s.route r destination sender) with
    | error e => exact absurd (decision_route_eq_error_iff.mp hanswer) (hnone e)
    | ok answer =>
      cases answer with
      | some plan => exact ⟨plan, rfl⟩
      | none => exact absurd happlies.1 (decision_route_eq_none_iff.mp hanswer).2.2

/-- A call's own route is asked for the numbers that it carries. -/
theorem Carries.callNumbers_eq {number caller : String} (h : Carries r number caller) :
    callNumbers r = (number, caller) := by
  cases h with
  | inbound h | outbound h =>
    rw [callNumbers, h]

/-- A call's own route fails, makes no plan and makes a plan when the same route does for the
numbers that it carries. -/
theorem decision_routeCall_of_carries {number caller : String} (h : Carries r number caller) :
    (decision settings (s.routeCall r)).map Option.isSome =
      (decision settings (s.route r number (some caller))).map Option.isSome := by
  rw [decision_routeCall, h.callNumbers_eq]
  cases decision settings (s.route r number (some caller)) with
  | error e => rfl
  | ok answer =>
    rw [Exchange.ok_bind, decision_completed]
    cases answer <;> rfl

/-- There is room for every pattern if the limit of lengths keeps within the room. -/
theorem not_overruns_of_maxLength_le {limits : PatternLimits}
    (hroom : limits.maxLength ≤ limits.room) (pattern digits : String) :
    ¬ Overruns limits pattern digits := by
  rintro ⟨-, p, hp, hdeep, -⟩
  have hlength := Pattern.length_atoms_le_of_parse hp
  omega

/-- **What comes of a route.** In every session that keeps the limits of patterns, and for every
switch, route, destination and sender: the route fails exactly in the ways listed, it makes no plan
exactly if its pattern is well-formed and, with room for the search, does not stand for the digits,
and it makes a plan exactly if it applies and does not fail. It never fails because the number does
not fit, and never for lack of room if the limit of lengths keeps within the room. A call's own
route fails, makes no plan and makes a plan when the route does for the numbers of the call. -/
theorem route_outcomes {x : Exchange} (hx : Session Settings.limits (Exchange.start settings) x)
    (s : Switch) (r : Route) (destination : String) (sender : Option String) :
    (∀ e, (s.route r destination sender x).1 = .error e ↔
        s.Fails x.settings r destination sender e) ∧
      ((s.route r destination sender x).1 = .ok none ↔
        (∀ e, ¬ Malformed settings.limits r.pattern e) ∧
          ¬ Overruns settings.limits r.pattern (s.digitsOf x.settings destination) ∧
          ¬ Covers settings.limits r.pattern (s.digitsOf x.settings destination)) ∧
      ((∃ plan, (s.route r destination sender x).1 = .ok (some plan)) ↔
        s.Applies x.settings r destination ∧
          ∀ e, ¬ s.Fails x.settings r destination sender e) ∧
      (∀ number pattern, (s.route r destination sender x).1 ≠ .error (.noFit number pattern)) ∧
      (settings.maxPatternLength ≤ settings.limits.room →
        (s.route r destination sender x).1 ≠ .error .tooDeep) ∧
      ∀ number caller, Carries r number caller →
        (s.routeCall r x).1.map Option.isSome =
          (s.route r number (some caller) x).1.map Option.isSome := by
  have hfaithful : x.Faithful := hx.faithful (fun _ _ h => h) (Exchange.faithful_start settings)
  have hlimits : x.settings.limits = settings.limits := hx.kept_eq
  rw [Neutral.answer x hfaithful, ← hlimits]
  refine ⟨fun e => decision_route_eq_error_iff, decision_route_eq_none_iff,
    exists_decision_route_iff, ?_, ?_, ?_⟩
  · intro number pattern he
    cases decision_route_eq_error_iff.mp he with
    | sender _ hsender => cases hsender
  · intro hroom he
    rw [hlimits] at hroom
    have hnever : ∀ pattern digits, ¬ Overruns x.settings.limits pattern digits := by
      rw [hlimits]
      exact not_overruns_of_maxLength_le hroom
    cases decision_route_eq_error_iff.mp he with
    | tooDeep hdeep => exact hnever _ _ hdeep
    | sender _ hsender =>
      cases hsender with
      | tooDeep _ _ hdeep => exact hnever _ _ hdeep
  · intro number caller hcarries
    rw [Neutral.answer x hfaithful, Neutral.answer x hfaithful]
    exact decision_routeCall_of_carries hcarries

/-- A route with a sender pattern that is not closed. -/
def unclosedRoute : Route := { id := "a", senderAddress := "1[", receiverAddress := "1202*" }

/-- The sender pattern is asked about a sender that is known, and fails then. -/
theorem route_outcomes_unclosed :
    (route ⟨"1", true⟩ unclosedRoute "2025551212" (some "1") (Exchange.start {})).1 =
        .error (.pattern ⟨.unclosedChoice, "1[", some 1⟩) ∧
      Fails ⟨"1", true⟩ {} unclosedRoute "2025551212" (some "1")
        (.pattern ⟨.unclosedChoice, "1[", some 1⟩) ∧
      Applies ⟨"1", true⟩ {} unclosedRoute "2025551212" ∧
      ∀ e, ¬ Fails ⟨"1", true⟩ {} unclosedRoute "2025551212" none e := by
  have hfails : (route ⟨"1", true⟩ unclosedRoute "2025551212" (some "1") (Exchange.start {})).1 =
      .error (.pattern ⟨.unclosedChoice, "1[", some 1⟩) := by decide +kernel
  have hplan : (route ⟨"1", true⟩ unclosedRoute "2025551212" none (Exchange.start {})).1 =
      .ok (some ⟨.localCall, false, "1202*", "+12025551212", "",
        .inbound "1202*" none⟩) := by decide +kernel
  obtain ⟨hknown, -⟩ := route_outcomes .refl ⟨"1", true⟩ unclosedRoute "2025551212" (some "1")
  obtain ⟨-, -, hunknown, -⟩ := route_outcomes .refl ⟨"1", true⟩ unclosedRoute "2025551212" none
  exact ⟨hfails, (hknown _).mp hfails, hunknown.mp ⟨_, hplan⟩⟩

/-- A pattern of three thousand digits is well-formed and stands for these digits, the route has no
template and no sender pattern, and there is no room for the search. -/
theorem route_outcomes_tooDeep :
    (∀ e, ¬ Malformed ({ maxPatternLength := 10000 } : Settings).limits
        (String.ofList (List.replicate 3000 '1')) e) ∧
      Covers ({ maxPatternLength := 10000 } : Settings).limits
        (String.ofList (List.replicate 3000 '1'))
        (digitsOf ⟨"1", true⟩ { maxPatternLength := 10000 }
          (String.ofList (List.replicate 3000 '1'))) ∧
      (route ⟨"1", true⟩ { id := "a", receiverAddress := String.ofList (List.replicate 3000 '1') }
        (String.ofList (List.replicate 3000 '1')) none
        (Exchange.start { maxPatternLength := 10000 })).1 = .error .tooDeep := by
  have hlen : ((3000 : Nat) : Int) ≤
      ({ maxPatternLength := 10000 } : Settings).limits.maxLength := by
    decide
  have hroom : ({ maxPatternLength := 10000 } : Settings).limits.room < 3000 := by decide
  obtain ⟨p, hparse, hcut, hdeep⟩ := Pattern.fitTo_replicate (c := '1') (n := 3000) (by decide)
    (by decide) hroom hlen
  have hkind := DialPlan.ofString_replicate (n := 3000) (by decide)
  have hdigits := DialPlan.digits_normalize_replicate { maxPatternLength := 10000 } (n := 3000)
    (by decide)
  generalize String.ofList (List.replicate 3000 '1') = number at *
  have hoverruns : Overruns ({ maxPatternLength := 10000 } : Settings).limits number number :=
    ⟨RoutePattern.isOpen_eq_false hkind, p, hparse, (Exchange.fitTo_eq_error hdeep).2,
      Pattern.Cuttable.begins_take hcut _⟩
  refine ⟨RoutePattern.not_malformed_of_parse hparse, ?_, ?_⟩
  · rw [digitsOf, hdigits, Covers, hkind]
    exact ⟨p, hparse, hcut⟩
  · rw [Neutral.answer _ (Exchange.faithful_start _)]
    apply decision_route_eq_error_iff.mpr
    apply Fails.tooDeep
    change Overruns ({ maxPatternLength := 10000 } : Settings).limits number
      (digitsOf _ { maxPatternLength := 10000 } number)
    rw [digitsOf, hdigits]
    exact hoverruns

end Switch

end CallRouting

import CallRouting.Proofs.Captures
import CallRouting.Proofs.Decision

/-!
# Rules are checked when they are read

* **Soundness** (`Rule.Sound`, `Route.Sound`): the patterns of a rule can be read, and its template
  passes the check against its receiver pattern. The route of a sound rule is sound.
* **One rule** (`Rule.reads_ofJson`): reading a rule is answered, be it with findings or with a
  sound rule. The check of the template asks for the receiver pattern once more; it was read just
  before, so that it cannot fail now.
* **A document** (`DialPlan.reads_ofDocument`): reading a document is answered, be it with findings
  or with a dial plan all of whose routes are sound.
-/

namespace CallRouting

open Exchange (decision decision_bind Neutral)

/-! ## Soundness -/

/-- Whether a text can be the pattern of a route under limits. -/
def RoutePattern.Readable (limits : PatternLimits) (source : String) : Prop :=
  isOpen source = true ∨ ∃ p, Pattern.parse limits source = .ok p

/-- Whether a template passes the check against a number pattern. -/
def Rule.TemplatePasses (limits : PatternLimits) (checked : Bool) (source template : String) :
    Prop :=
  ∃ p, Pattern.parse limits source = .ok p ∧ checkRuns checked p template = .ok ()

/-- A rule whose patterns can be read and whose template passes the check. -/
structure Rule.Sound (limits : PatternLimits) (checked : Bool) (r : Rule) : Prop where
  sender : RoutePattern.Readable limits r.senderAddress
  receiver : RoutePattern.Readable limits r.receiverAddress
  template : ∀ template, r.template = some template →
    Rule.TemplatePasses limits checked r.receiverAddress template

/-- A route whose patterns can be read and whose template passes the check. -/
structure Route.Sound (limits : PatternLimits) (checked : Bool) (r : Route) : Prop where
  sender : RoutePattern.Readable limits r.senderAddress
  receiver : RoutePattern.Readable limits r.pattern
  template : ∀ template, r.template? = some template →
    Rule.TemplatePasses limits checked r.pattern template

/-- A rule that names no other pattern has its receiver pattern. -/
theorem Rule.pattern_toRoute (r : Rule) : r.toRoute.pattern = r.receiverAddress := by
  unfold toRoute Route.pattern
  cases r.direction with
  | inbound => rfl
  | outbound =>
    by_cases hempty : r.receiverAddress.isEmpty = true
    · simp [nonEmptyOr]
    · simp [nonEmptyOr, hempty]

/-- The route of a sound rule is sound. -/
theorem Rule.Sound.toRoute {limits : PatternLimits} {checked : Bool} {r : Rule}
    (h : r.Sound limits checked) : r.toRoute.Sound limits checked := by
  refine ⟨h.sender, ?_, fun template htemplate => ?_⟩
  · rw [Rule.pattern_toRoute]
    exact h.receiver
  · rw [Rule.pattern_toRoute]
    apply h.template
    unfold Rule.toRoute Route.template? at htemplate
    cases hd : r.direction with
    | inbound =>
      rw [hd] at htemplate
      cases htemplate
    | outbound =>
      rw [hd] at htemplate
      exact (Option.filter_eq_some_iff.mp htemplate).1

/-! ## Reading rules -/

/-- Whether a question is answered, be it with a fault or with a value that has a property. -/
def Reads {ε φ α : Type} (settings : Settings) (w : Work ε (Except φ α)) (good : α → Prop) : Prop :=
  ∃ c, decision settings w = .ok c ∧ ∀ a, c = .ok a → good a

/-- A question that is answered, and then another one that is answered whatever comes of the
first. -/
theorem Reads.bind {ε φ φ' α β : Type} {settings : Settings} {w : Work ε (Except φ α)}
    {f : Except φ α → Work ε (Except φ' β)} {good : α → Prop} {good' : β → Prop} [Neutral w]
    (h : Reads settings w good) (hneutral : ∀ c, Neutral (f c))
    (hf : ∀ c, (∀ a, c = .ok a → good a) → Reads settings (f c) good') :
    Reads settings (w >>= f) good' := by
  obtain ⟨c, hc, hgood⟩ := h
  unfold Reads
  rw [decision_bind, hc]
  exact hf c hgood

namespace Rule

variable {ε : Type} (settings : Settings) (place : List PathStep)

/-- What comes of a text in a pattern field, once it was read as a pattern. -/
def verdict (source : String) : Except PatternError Pattern → Checked String
  | .ok _ => .ok source
  | .error e => Checked.flaw (.refused e.message) place

/-- Checking a text asks for the pattern with that source, unless it is one of the two kinds with a
star. -/
theorem checkPattern_apply (source : String) (x : Exchange) :
    (liftM (checkPattern place source) : Work ε (Checked String)) x =
      if RoutePattern.isOpen source then (.ok (.ok source), x)
      else (.ok (verdict place source (Exchange.ask source x).1), (Exchange.ask source x).2) := by
  unfold checkPattern
  by_cases hopen : RoutePattern.isOpen source = true
  · rw [if_pos hopen, if_pos hopen]
    rfl
  · rw [if_neg hopen, if_neg hopen]
    change (let c := (match (Exchange.ask source x).1 with
        | .ok _ => (pure (.ok source) : StateM Exchange (Checked String))
        | .error e => pure (Checked.flaw (.refused e.message) place)) (Exchange.ask source x).2
      ((.ok c.1, c.2) : Except ε (Checked String) × Exchange)) = _
    cases (Exchange.ask source x).1 <;> rfl

instance (source : String) :
    Neutral (liftM (checkPattern place source) : Work ε (Checked String)) := by
  constructor
  · intro x
    rw [checkPattern_apply]
    split_ifs
    · exact .refl
    · exact Neutral.session x
  · intro x hx
    rw [decision, checkPattern_apply, checkPattern_apply]
    split_ifs
    · rfl
    · have hanswer := Neutral.answer (w := Exchange.ask source) x hx
      rw [hanswer]
      rfl

/-- What checking a text comes to. -/
theorem decision_checkPattern (source : String) :
    decision settings (liftM (checkPattern place source) : Work ε (Checked String)) =
      .ok (if RoutePattern.isOpen source then .ok source
        else verdict place source (Pattern.parse settings.limits source)) := by
  have hask := Exchange.decision_ask settings source
  unfold decision at hask ⊢
  rw [checkPattern_apply, hask]
  split_ifs <;> rfl

/-- A text that passes can be read. -/
theorem reads_checkPattern (source : String) :
    Reads settings (liftM (checkPattern place source) : Work ε (Checked String))
      (RoutePattern.Readable settings.limits) := by
  refine ⟨_, decision_checkPattern settings place source, fun text htext => ?_⟩
  by_cases hopen : RoutePattern.isOpen source = true
  · rw [if_pos hopen] at htext
    cases htext
    exact Or.inl hopen
  · rw [if_neg hopen] at htext
    cases hparse : Pattern.parse settings.limits source with
    | error e =>
      rw [hparse] at htext
      cases htext
    | ok p =>
      rw [hparse] at htext
      cases htext
      exact Or.inr ⟨p, hparse⟩

instance (record : Json) (name : String) (standard : Checked String) :
    Neutral (liftM (patternAt record place name standard) : Work ε (Checked String)) := by
  unfold patternAt
  split
  · infer_instance
  · exact ⟨fun _ => .refl, fun _ _ => rfl⟩

/-- A text in a pattern field that passes can be read, if the standard one can. -/
theorem reads_patternAt (record : Json) (name : String) {standard : Checked String}
    (h : ∀ text, standard = .ok text → RoutePattern.Readable settings.limits text) :
    Reads settings (liftM (patternAt record place name standard) : Work ε (Checked String))
      (RoutePattern.Readable settings.limits) := by
  unfold patternAt
  split
  · exact reads_checkPattern settings _ _
  · rename_i hfield
    refine ⟨_, rfl, fun text htext => ?_⟩
    unfold fieldAt at htext
    cases hv : record.field? name with
    | none =>
      rw [hv] at htext
      exact h text htext
    | some v =>
      rw [hv] at htext
      cases v with
      | str s => exact absurd hv (hfield s)
      | _ => cases htext

/-! ## Rules -/

instance (r : Rule) : Neutral r.checkTemplate := by
  unfold checkTemplate
  split
  · infer_instance
  · infer_instance

/-- Once the receiver pattern of a rule was read, checking the template asks for it with success. -/
theorem reads_checkTemplate {r : Rule}
    (h : RoutePattern.Readable settings.limits r.receiverAddress) :
    Reads settings r.checkTemplate fun _ => ∀ template, r.template = some template →
      TemplatePasses settings.limits settings.strictTemplates r.receiverAddress template := by
  unfold Reads checkTemplate
  cases htemplate : r.template with
  | none => exact ⟨.ok (), rfl, fun _ _ _ h => by cases h⟩
  | some template =>
    simp only [Exchange.decision_ite, decision_bind, Exchange.decision_settingsNow,
      Exchange.decision_ask, Exchange.decision_pure, Exchange.ok_bind]
    split_ifs with hd hopen
    · exact ⟨.error .inbound, rfl, fun _ h => by cases h⟩
    · exact ⟨.error .openPattern, rfl, fun _ h => by cases h⟩
    · rcases h with h | ⟨p, hp⟩
      · exact absurd h hopen
      rw [hp]
      refine ⟨_, rfl, fun _ hcheck other hother => ?_⟩
      cases hother
      exact ⟨p, hp, hcheck⟩

instance (checked : Checked Rule) : Neutral (accept place checked) := by
  unfold accept
  cases checked with
  | error findings => infer_instance
  | ok r =>
    refine Neutral.bind inferInstance fun c => ?_
    cases c <;> infer_instance

/-- A rule that is accepted is the one whose fields are in order, and its template passes. -/
theorem reads_accept {checked : Checked Rule}
    (h : ∀ r, checked = .ok r → RoutePattern.Readable settings.limits r.receiverAddress) :
    Reads settings (accept place checked) fun r => checked = .ok r ∧
      ∀ template, r.template = some template →
        TemplatePasses settings.limits settings.strictTemplates r.receiverAddress template := by
  unfold accept
  cases checked with
  | error findings => exact ⟨_, rfl, fun _ h => by cases h⟩
  | ok r =>
    refine (reads_checkTemplate settings (h r rfl)).bind (fun c => ?_) fun c hc => ?_
    · cases c <;> infer_instance
    · cases c with
      | error fault => exact ⟨_, rfl, fun _ h => by cases h⟩
      | ok u =>
        refine ⟨_, rfl, fun taken htaken => ?_⟩
        cases htaken
        exact ⟨rfl, hc u rfl⟩

/-- What was found in the pattern fields is in the rule. -/
theorem patterns_of_fieldsAt {record : Json} {place : List PathStep}
    {sender receiver : Checked String} {r : Rule}
    (h : fieldsAt record place sender receiver = .ok r) :
    sender = .ok r.senderAddress ∧ receiver = .ok r.receiverAddress := by
  -- the fields from the last one back to the first
  obtain ⟨_, _, h₁, -, rfl⟩ := Checked.apply_eq_ok_iff.mp h
  obtain ⟨_, _, h₂, hreceiver, rfl⟩ := Checked.apply_eq_ok_iff.mp h₁
  obtain ⟨_, _, h₃, hsender, rfl⟩ := Checked.apply_eq_ok_iff.mp h₂
  obtain ⟨_, _, h₄, -, rfl⟩ := Checked.apply_eq_ok_iff.mp h₃
  obtain ⟨_, _, h₅, -, rfl⟩ := Checked.apply_eq_ok_iff.mp h₄
  obtain ⟨_, _, h₆, -, rfl⟩ := Checked.apply_eq_ok_iff.mp h₅
  obtain ⟨_, _, h₇, -, rfl⟩ := Checked.apply_eq_ok_iff.mp h₆
  obtain ⟨_, _, h₈, -, rfl⟩ := Checked.apply_eq_ok_iff.mp h₇
  cases h₈
  exact ⟨hsender, hreceiver⟩

instance (record : Json) : Neutral (Rule.ofJson place record) := by
  unfold Rule.ofJson
  split <;> infer_instance

/-- **A rule that was read is sound**, and reading it never fails. -/
theorem reads_ofJson (record : Json) :
    Reads settings (Rule.ofJson place record)
      (Rule.Sound settings.limits settings.strictTemplates) := by
  unfold Rule.ofJson
  split
  · refine (reads_patternAt settings place _ _ fun text htext => ?_).bind inferInstance
      fun sender hsender => ?_
    · cases htext
      exact Or.inl (by decide)
    refine (reads_patternAt settings place _ _ fun text htext => ?_).bind inferInstance
      fun receiver hreceiver => ?_
    · cases htext
    obtain ⟨c, hc, haccepted⟩ := reads_accept settings place fun r hr =>
      hreceiver _ (patterns_of_fieldsAt hr).2
    refine ⟨c, hc, fun r hr => ?_⟩
    obtain ⟨hfields, htemplate⟩ := haccepted r hr
    obtain ⟨hs, hr⟩ := patterns_of_fieldsAt hfields
    exact ⟨hsender _ hs, hreceiver _ hr, htemplate⟩
  · exact ⟨_, rfl, fun _ h => by cases h⟩

end Rule

/-! ## Reading documents -/

namespace DialPlan

variable (settings : Settings)

instance (index : Nat) (items : List Json) : Neutral (rulesFrom index items) := by
  induction items generalizing index with
  | nil =>
    unfold rulesFrom
    infer_instance
  | cons item rest ih =>
    unfold rulesFrom
    infer_instance

/-- The rules of a list are sound. -/
theorem reads_rulesFrom (index : Nat) (items : List Json) :
    Reads settings (rulesFrom index items) fun rules =>
      ∀ r ∈ rules, Rule.Sound settings.limits settings.strictTemplates r := by
  induction items generalizing index with
  | nil =>
    refine ⟨.ok [], rfl, fun rules h => ?_⟩
    cases h
    exact List.forall_mem_nil _
  | cons item rest ih =>
    unfold rulesFrom
    refine (Rule.reads_ofJson settings _ item).bind inferInstance fun rule hrule => ?_
    refine (ih (index + 1)).bind inferInstance fun rules hrules => ?_
    refine ⟨_, rfl, fun all h => ?_⟩
    obtain ⟨_, _, hcons, hall, rfl⟩ := Checked.apply_eq_ok_iff.mp h
    obtain ⟨_, r, hmk, hr, rfl⟩ := Checked.apply_eq_ok_iff.mp hcons
    cases hmk
    exact List.forall_mem_cons.mpr ⟨hrule r hr, hrules _ hall⟩

instance (document : Json) : Neutral (rulesOf document) := by
  unfold rulesOf
  split
  · split <;> infer_instance
  · infer_instance

instance (s : Switch) (document : Json) : Neutral (ofDocument s document) := by
  unfold ofDocument
  infer_instance

/-- **A dial plan that was read has sound routes**, and reading it never fails. -/
theorem reads_ofDocument (s : Switch) (document : Json) :
    Reads settings (ofDocument s document) fun plan => plan.switch = s ∧
      ∀ r ∈ plan.routes, Route.Sound settings.limits settings.strictTemplates r := by
  have hrules : Reads settings (rulesOf document) fun rules =>
      ∀ r ∈ rules, Rule.Sound settings.limits settings.strictTemplates r := by
    unfold rulesOf
    split
    · split
      · refine ⟨.ok [], rfl, fun rules h => ?_⟩
        cases h
        exact List.forall_mem_nil _
      · exact reads_rulesFrom settings 0 _
      · exact ⟨_, rfl, fun _ h => by cases h⟩
    · exact ⟨_, rfl, fun _ h => by cases h⟩
  unfold ofDocument
  refine hrules.bind inferInstance fun rules hsound => ?_
  refine ⟨_, rfl, fun plan h => ?_⟩
  cases rules with
  | error findings => cases h
  | ok rules =>
    cases h
    refine ⟨rfl, fun r hr => ?_⟩
    obtain ⟨rule, hrule, rfl⟩ := List.mem_map.mp hr
    exact (hsound rules rfl rule hrule).toRoute

end DialPlan

end CallRouting

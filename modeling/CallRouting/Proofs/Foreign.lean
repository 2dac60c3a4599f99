import CallRouting.Proofs.Decision

/-!
# How foreign numbers are classed

A number is *foreign* to a switch if its digits do not begin with the country code of the switch.
Class and plan see the digits only: the plus sign in front of a number is dropped before.

* **Digits** (`CallClass.ofDigits_foreign`): ten foreign digits and more are international, but for
  exactly ten of them, which are taken for a national number without its country code.
* **Numbers** (`Switch.classify_plus`): a plus sign keeps a number from being given a country code,
  and not from being taken for a national one.
* **Plans** (`Switch.classification_of_route`, `DialPlan.classification_of_route`): whatever was
  asked before, a plan has the class that the normal form of its number has for the pattern of its
  route.
* **Together** (`Switch.foreign_international_iff`): a foreign number that is dialled with a plus
  sign is international exactly if it has not got ten digits, and so is every plan for it.
-/

namespace CallRouting

open Exchange (Neutral)

/-! ## Classes of digits -/

/-- Ten foreign digits are local, more are international. -/
theorem CallClass.ofDigits_foreign {code digits : List Char} (hlong : 10 ≤ digits.length)
    (hforeign : ¬ code <+: digits) (pattern : String) :
    ofDigits code digits pattern = if digits.length = 10 then .localCall else .international := by
  have hseven : digits.length ≠ 7 := by omega
  have hprefix : code.isPrefixOf digits = false := by
    simpa [← List.isPrefixOf_iff_prefix] using hforeign
  simp [ofDigits, isNational, Number.nationalLength, hseven, hprefix, hlong]

/-! ## Numbers with a plus sign -/

namespace Number

/-- Digits are no formatting. -/
theorem isFormatting_of_isDigit {c : Char} (h : Text.isDigit c = true) :
    isFormatting c = false := by
  simp only [isFormatting, Bool.or_eq_false_iff, decide_eq_false_iff_not]
  refine ⟨⟨⟨?_, ?_⟩, ?_⟩, ?_⟩ <;> (rintro rfl; exact absurd h (by decide))

/-- Digits are no plus signs. -/
theorem ne_plus_of_isDigit {c : Char} (h : Text.isDigit c = true) : c ≠ '+' := by
  rintro rfl
  exact absurd h (by decide)

variable {ds : List Char}

/-- Digits behind a plus sign are a normal form. -/
theorem normalize_plus (hdigits : ∀ c ∈ ds, Text.isDigit c = true) (code : String) :
    normalize code (String.ofList ('+' :: ds)) = String.ofList ('+' :: ds) := by
  have hbare : bare ('+' :: ds) = '+' :: ds := by
    refine List.filter_eq_self.mpr fun c hc => ?_
    rcases List.mem_cons.mp hc with rfl | hc
    · rfl
    · simp [isFormatting_of_isDigit (hdigits c hc)]
  rw [normalize, String.toList_ofList, hbare, addPrefix_plus]

/-- The plus sign is none of the digits. -/
theorem digits_plus (hdigits : ∀ c ∈ ds, Text.isDigit c = true) :
    digits (String.ofList ('+' :: ds)) = String.ofList ds := by
  have hkept : ds.filter (· ≠ '+') = ds :=
    List.filter_eq_self.mpr fun c hc => by simpa using ne_plus_of_isDigit (hdigits c hc)
  rw [digits, String.toList_ofList, List.filter_cons_of_neg (by decide), hkept]

end Number

/-! ## The class of a plan -/

/-- **A plan has the class of the number's normal form for the route's pattern.** -/
theorem Switch.classification_of_route {s : Switch} {r : Route} {destination : String}
    {sender : Option String} {x : Exchange} {plan : Plan}
    (h : (s.route r destination sender x).1 = .ok (some plan)) :
    plan.classification = s.classify (s.normalize x.settings destination) r.pattern := by
  unfold route at h
  obtain ⟨settings, hsettings, h⟩ := Exchange.bind_apply_eq_ok h
  obtain rfl : x.settings = settings := Except.ok.inj hsettings
  obtain ⟨applies, -, h⟩ := Exchange.bind_apply_eq_ok h
  cases applies with
  | false =>
    obtain ⟨-, -, h⟩ := Exchange.bind_apply_eq_ok h
    cases h
  | true =>
    rw [if_neg (by decide)] at h
    obtain ⟨isAuthorized, -, h⟩ := Exchange.bind_apply_eq_ok h
    obtain ⟨address, -, h⟩ := Exchange.bind_apply_eq_ok h
    obtain ⟨-, -, h⟩ := Exchange.bind_apply_eq_ok h
    rw [← Option.some.inj (Except.ok.inj h)]

namespace DialPlan

variable {s : Switch} {destination : String} {sender : Option String} {plan : Plan}

/-- The plan that a search ends with has the class of the number for the pattern of a route. -/
theorem classification_of_firstPlan {routes : List Route} {x : Exchange}
    (h : (firstPlan s destination sender routes x).1 = .ok (some plan)) :
    ∃ r ∈ routes,
      plan.classification = s.classify (s.normalize x.settings destination) r.pattern := by
  induction routes generalizing x with
  | nil => cases h
  | cons r rest ih =>
    obtain ⟨answer, hanswer, h⟩ := Exchange.bind_apply_eq_ok h
    cases answer with
    | some found =>
      cases h
      exact ⟨r, List.mem_cons_self, Switch.classification_of_route hanswer⟩
    | none =>
      -- the routes behind find other patterns in the store, but the same settings
      obtain ⟨r', hr', hclass⟩ := ih h
      rw [Neutral.settings_eq inferInstance x] at hclass
      exact ⟨r', List.mem_cons_of_mem r hr', hclass⟩

/-- **A plan of a dial plan has the class of the number for the pattern of one of its routes.** -/
theorem classification_of_route {p : DialPlan} {direction : Option Direction} {x : Exchange}
    (h : (p.route destination sender direction x).1 = .ok (some plan)) :
    ∃ r ∈ p.routes,
      plan.classification =
        p.switch.classify (p.switch.normalize x.settings destination) r.pattern := by
  obtain ⟨r, hr, hclass⟩ := classification_of_firstPlan h
  refine ⟨r, ?_, hclass⟩
  cases direction with
  | none => exact hr
  | some d => exact List.mem_of_mem_filter hr

end DialPlan

/-! ## Foreign numbers -/

namespace Switch

variable {s : Switch} {ds : List Char}

/-- Digits behind a plus sign are the same number for the switch before and after it has brought
them into the normal form. -/
theorem normalize_plus (hdigits : ∀ c ∈ ds, Text.isDigit c = true) (settings : Settings) :
    s.normalize settings (String.ofList ('+' :: ds)) = String.ofList ('+' :: ds) :=
  Number.normalize_plus hdigits _

/-- **The class of a foreign number with a plus sign.** -/
theorem classify_plus (hdigits : ∀ c ∈ ds, Text.isDigit c = true) (hlong : 10 ≤ ds.length)
    (hforeign : ¬ s.countryCode.toList <+: ds) (pattern : String) :
    s.classify (String.ofList ('+' :: ds)) pattern =
      if ds.length = 10 then .localCall else .international := by
  rw [classify, CallClass.ofNumber, Number.digits_plus hdigits, String.toList_ofList,
    CallClass.ofDigits_foreign hlong hforeign]

/-- **A foreign number is taken for a domestic one exactly if it has ten digits.** The number is
dialled as a plus sign and at least ten digits that do not begin with the country code. For every
pattern it is international unless there are ten of them, and local then; the same holds for every
plan that the switch or a dial plan makes for it, at any moment, for any sender and any routes. -/
theorem foreign_international_iff (hdigits : ∀ c ∈ ds, Text.isDigit c = true)
    (hlong : 10 ≤ ds.length) (hforeign : ¬ s.countryCode.toList <+: ds) :
    (∀ pattern, (s.classify (String.ofList ('+' :: ds)) pattern = .international ↔
        ds.length ≠ 10) ∧
      (s.classify (String.ofList ('+' :: ds)) pattern = .localCall ↔ ds.length = 10)) ∧
    (∀ (r : Route) (sender : Option String) (x : Exchange) (plan : Plan),
      (s.route r (String.ofList ('+' :: ds)) sender x).1 = .ok (some plan) →
        (plan.classification = .international ↔ ds.length ≠ 10)) ∧
    ∀ (routes : List Route) (sender : Option String) (direction : Option Direction)
      (x : Exchange) (plan : Plan),
      (DialPlan.route ⟨routes, s⟩ (String.ofList ('+' :: ds)) sender direction x).1 =
          .ok (some plan) →
        (plan.classification = .international ↔ ds.length ≠ 10) := by
  have hclass := classify_plus (s := s) hdigits hlong hforeign
  have hinternational : ∀ pattern,
      s.classify (String.ofList ('+' :: ds)) pattern = .international ↔ ds.length ≠ 10 := by
    intro pattern
    rw [hclass]
    split_ifs with hten <;> simp [hten]
  refine ⟨fun pattern => ⟨hinternational pattern, ?_⟩, fun r sender x plan h => ?_,
    fun routes sender direction x plan h => ?_⟩
  · rw [hclass]
    split_ifs with hten <;> simp [hten]
  · rw [classification_of_route h, normalize_plus hdigits]
    exact hinternational r.pattern
  · obtain ⟨r, -, hplan⟩ := DialPlan.classification_of_route h
    rw [hplan, normalize_plus hdigits]
    exact hinternational r.pattern

/-- A number of twelve digits under the country code 1, and the plan for it. -/
theorem foreign_international_iff_twelve :
    (⟨"1", true⟩ : Switch).classify "+442071838371" "44*" = .international ∧
      ∃ plan, ((⟨"1", true⟩ : Switch).route { id := "a", receiverAddress := "44*" }
          "+442071838371" none (Exchange.start {})).1 = .ok (some plan) ∧
        plan.classification = .international := by
  have hdigits : ∀ c ∈ "442071838371".toList, Text.isDigit c = true :=
    List.all_eq_true.mp (by decide +kernel)
  have hforeign : ¬ ("1" : String).toList <+: "442071838371".toList := by decide +kernel
  obtain ⟨hclass, hplan, -⟩ := foreign_international_iff (s := ⟨"1", true⟩) hdigits
    (by decide +kernel) hforeign
  have hroute : ((⟨"1", true⟩ : Switch).route { id := "a", receiverAddress := "44*" }
      "+442071838371" none (Exchange.start {})).1 =
      .ok (some ⟨.international, true, "44*", "+442071838371", "",
        .inbound "44*" none⟩) := by decide +kernel
  exact ⟨(hclass "44*").1.mpr (by decide +kernel), _, hroute,
    (hplan _ _ _ _ hroute).mpr (by decide +kernel)⟩

/-- A number of ten digits, two of which are the country code of another country: it is taken for a
national number. -/
theorem foreign_taken_for_domestic :
    (∀ c ∈ "4712345678".toList, Text.isDigit c = true) ∧ 10 ≤ "4712345678".toList.length ∧
      ¬ ("1" : String).toList <+: "4712345678".toList ∧
      (⟨"1", true⟩ : Switch).classify "+4712345678" "*" = .localCall ∧
      ∃ plan, ((⟨"1", true⟩ : Switch).route { id := "a", receiverAddress := "*" } "+4712345678" none
          (Exchange.start {})).1 = .ok (some plan) ∧ plan.classification ≠ .international := by
  refine ⟨List.all_eq_true.mp (by decide +kernel), by decide +kernel, by decide +kernel,
    by decide +kernel, ⟨.localCall, true, "*", "+4712345678", "", .inbound "*" none⟩,
    by decide +kernel, by decide +kernel⟩

end Switch

end CallRouting

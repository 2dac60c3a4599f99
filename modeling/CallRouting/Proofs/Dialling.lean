import CallRouting.Proofs.Precedence

/-!
# Routing does not depend on how a number was dialled

A number can be dialled with or without characters that only set its parts apart, and a national
number also with the country code in front, with or without a plus sign.

* **Forms of a number** (`Number.Variant`, `Number.SameNumber`): under a country code of digits, two
  texts are forms of one number exactly if they have the same normal form
  (`Number.sameNumber_iff`). So the normal form of a normal form is itself
  (`Number.normalize_normalize`).
* **One route** (`Switch.decision_route_congr`): a switch with a country code of its own reads
  nothing of a request but the normal forms of its numbers, and of the settings only the limits of
  patterns.
* **A dial plan** (`DialPlan.route_of_sameNumber`): two requests for forms of one number have the
  same answer.
-/

namespace CallRouting

open Exchange (decision Neutral Session)

/-! ## Forms of a number -/

namespace Number

/-- Two texts that stand for one number under a country code: they differ in characters that only
set parts apart, the one is a national number and the other has the country code before it, with or
without a plus sign, or the one is the normal form of the other. -/
inductive Variant (code : String) : String → String → Prop
  | formatted {a b : String} (h : bare a.toList = bare b.toList) : Variant code a b
  | withCode {a : String} (hlength : a.toList.length = nationalLength)
      (hplus : a.toList.head? ≠ some '+') (hbare : bare a.toList = a.toList) :
      Variant code a (code ++ a)
  | withPlus {a : String} (hlength : a.toList.length = nationalLength)
      (hplus : a.toList.head? ≠ some '+') (hbare : bare a.toList = a.toList) :
      Variant code a ("+" ++ code ++ a)
  | normal (a : String) : Variant code a (normalize code a)

/-- Two texts that stand for one number, by way of any others. -/
def SameNumber (code : String) : String → String → Prop := Relation.EqvGen (Variant code)

variable {code : String}

/-- A country code of digits has no characters that only set parts apart. -/
theorem bare_code (hcode : ∀ c ∈ code.toList, Text.isDialDigit c = true) :
    bare code.toList = code.toList := by
  refine List.filter_eq_self.mpr fun c hc => ?_
  have hdigit := hcode c hc
  simp only [isFormatting, Bool.not_eq_true', Bool.or_eq_false_iff, decide_eq_false_iff_not]
  refine ⟨⟨⟨?_, ?_⟩, ?_⟩, ?_⟩ <;> (rintro rfl; exact absurd hdigit (by decide))

/-- A country code of digits does not start with a plus sign, and neither does what it is put in
front of. -/
theorem head?_code_append (hcode : ∀ c ∈ code.toList, Text.isDialDigit c = true)
    (hne : code.toList ≠ []) (number : List Char) :
    (code.toList ++ number).head? ≠ some '+' := by
  intro hhead
  rw [List.head?_append_of_ne_nil _ hne] at hhead
  exact absurd (hcode '+' (List.mem_of_mem_head? hhead)) (by decide)

/-- Characters that set parts apart are removed wherever they stand. -/
theorem bare_append (number number' : List Char) :
    bare (number ++ number') = bare number ++ bare number' :=
  List.filter_append _ _

/-- A plus sign is not removed. -/
theorem bare_plus (number : List Char) : bare ('+' :: number) = '+' :: bare number := rfl

/-- The prefix has nothing to be removed. -/
theorem bare_addPrefix (hcode : ∀ c ∈ code.toList, Text.isDialDigit c = true)
    {number : List Char} (hbare : bare number = number) :
    bare (addPrefix code.toList number) = addPrefix code.toList number := by
  unfold addPrefix
  split_ifs with hplus hnational hcoded
  · exact hbare
  · rw [List.cons_append, bare_plus, bare_append, bare_code hcode, hbare]
  · rw [bare_plus, hbare]
  · exact hbare

/-- A number that has its prefix gets no other one. -/
theorem addPrefix_addPrefix (code number : List Char) :
    addPrefix code (addPrefix code number) = addPrefix code number := by
  by_cases hplus : number.head? = some '+'
  · rw [addPrefix.eq_def code number, if_pos hplus, addPrefix, if_pos hplus]
  by_cases hnational : number.length = nationalLength
  · rw [addPrefix.eq_def code number, if_neg hplus, if_pos hnational, List.cons_append,
      addPrefix_plus]
  by_cases hcoded : number.length = nationalLength + code.length ∧ code.isPrefixOf number
  · rw [addPrefix.eq_def code number, if_neg hplus, if_neg hnational, if_pos hcoded,
      addPrefix_plus]
  · have hkept : addPrefix code number = number := by
      rw [addPrefix, if_neg hplus, if_neg hnational, if_neg hcoded]
    rw [hkept, hkept]

/-- **The normal form of a normal form is itself.** -/
theorem normalize_normalize (hcode : ∀ c ∈ code.toList, Text.isDialDigit c = true)
    (a : String) : normalize code (normalize code a) = normalize code a := by
  unfold normalize
  rw [String.toList_ofList, bare_addPrefix hcode (bare_bare _), addPrefix_addPrefix]

/-- Forms of one number have the same normal form. -/
theorem Variant.normalize_eq (hcode : ∀ c ∈ code.toList, Text.isDialDigit c = true)
    (hne : code ≠ "") {a b : String} (h : Variant code a b) :
    normalize code a = normalize code b := by
  cases h with
  | formatted h => rw [normalize, normalize, h]
  | normal => exact (normalize_normalize hcode a).symm
  | withCode hlength hplus hbare =>
    have hnil : code.toList ≠ [] := fun h => hne (String.toList_eq_nil_iff.mp h)
    have hpositive : 0 < code.toList.length := List.length_pos_of_ne_nil hnil
    have hcoded : (code.toList ++ a.toList).length = nationalLength + code.toList.length ∧
        code.toList.isPrefixOf (code.toList ++ a.toList) := by
      rw [List.length_append, hlength, Nat.add_comm]
      exact ⟨rfl, List.isPrefixOf_iff_prefix.mpr (List.prefix_append _ _)⟩
    have hlonger : (code.toList ++ a.toList).length ≠ nationalLength := by omega
    rw [normalize, normalize, String.toList_append, bare_append, bare_code hcode, hbare,
      addPrefix, if_neg hplus, if_pos hlength, addPrefix,
      if_neg (head?_code_append hcode hnil _), if_neg hlonger, if_pos hcoded, List.cons_append]
  | withPlus hlength hplus hbare =>
    have hlist : ("+" ++ code ++ a).toList = '+' :: (code.toList ++ a.toList) := by
      simp [String.toList_append]
    rw [normalize, normalize, hlist, bare_plus, bare_append, bare_code hcode, hbare,
      addPrefix_plus, addPrefix, if_neg hplus, if_pos hlength, List.cons_append]

/-- **Two texts are forms of one number exactly if they have the same normal form.** -/
theorem sameNumber_iff (hcode : ∀ c ∈ code.toList, Text.isDialDigit c = true) (hne : code ≠ "")
    {a b : String} : SameNumber code a b ↔ normalize code a = normalize code b := by
  constructor
  · intro h
    induction h with
    | rel a b h => exact h.normalize_eq hcode hne
    | refl a => rfl
    | symm a b _ ih => exact ih.symm
    | trans a b c _ _ ih ih' => exact ih.trans ih'
  · intro h
    have ha : SameNumber code a (normalize code a) := .rel _ _ (.normal a)
    have hb : SameNumber code b (normalize code b) := .rel _ _ (.normal b)
    rw [h] at ha
    exact ha.trans _ _ _ hb.symm

/-- The senders of two requests that are to be treated alike: there is none, or they are forms of
one number and neither is empty. -/
inductive SameSender (code : String) : Option String → Option String → Prop
  | none : SameSender code none none
  | some {a b : String} (ha : a ≠ "") (hb : b ≠ "") (h : SameNumber code a b) :
      SameSender code (some a) (some b)

end Number

/-! ## One route -/

namespace Switch

variable {settings settings' : Settings} {s : Switch}

/-- Whether digits are accepted depends on the limits of patterns only. -/
theorem decision_accepts_congr (hlimits : settings.limits = settings'.limits)
    (pattern digits : String) :
    decision settings (accepts pattern digits) = decision settings' (accepts pattern digits) := by
  simp only [decision_accepts, Exchange.decision_fits, Exchange.decision_fit?,
    Exchange.decision_pattern, hlimits]

/-- How a number is written depends on the limits of patterns only. -/
theorem decision_address_congr (hlimits : settings.limits = settings'.limits) (r : Route)
    (normal : String) :
    decision settings (s.address r normal) = decision settings' (s.address r normal) := by
  simp only [decision_address, Exchange.decision_transform, Exchange.decision_pattern, hlimits]

/-- Senders that are to be treated alike are authorized alike. -/
theorem decision_authorizes_congr (hlimits : settings.limits = settings'.limits)
    (hcode : ∀ c ∈ s.countryCode.toList, Text.isDialDigit c = true) (hne : s.countryCode ≠ "")
    {sender sender' : Option String} (hsender : Number.SameSender s.countryCode sender sender')
    (senderPattern : String) :
    decision settings (s.authorizes senderPattern sender) =
      decision settings' (s.authorizes senderPattern sender') := by
  have hcountry : s.countryCode.isEmpty = false := by simpa using hne
  rw [decision_authorizes, decision_authorizes]
  cases hsender with
  | none =>
    have hempty : (none.getD "" : String).isEmpty = true := rfl
    rw [if_pos hempty, if_pos hempty]
  | some ha hb h =>
    have hnormal := (Number.sameNumber_iff hcode hne).mp h
    simp only [Option.getD_some, String.isEmpty_iff, ha, hb, if_false,
      normalize_eq_of_ne _ _ _ hcountry, hnormal, decision_accepts_congr hlimits]

/-- **A route reads the normal forms of the numbers and the limits of patterns, and nothing else of
the request and the settings.** -/
theorem decision_route_congr (hlimits : settings.limits = settings'.limits)
    (hcode : ∀ c ∈ s.countryCode.toList, Text.isDialDigit c = true) (hne : s.countryCode ≠ "")
    {destination destination' : String}
    (hdestination : Number.SameNumber s.countryCode destination destination')
    {sender sender' : Option String} (hsender : Number.SameSender s.countryCode sender sender')
    (r : Route) :
    decision settings (s.route r destination sender) =
      decision settings' (s.route r destination' sender') := by
  have hcountry : s.countryCode.isEmpty = false := by simpa using hne
  have hnormal := (Number.sameNumber_iff hcode hne).mp hdestination
  simp only [decision_route, normalize_eq_of_ne _ _ _ hcountry, hnormal,
    decision_accepts_congr hlimits, decision_address_congr hlimits,
    decision_authorizes_congr hlimits hcode hne hsender]

end Switch

/-! ## A dial plan -/

namespace DialPlan

/-- **Routing does not depend on how a number was dialled.** The switch has a country code of
digits. Two requests for forms of one number, from senders that are to be treated alike, have the
same answer, at any two moments of a session that keeps the limits of patterns; and what the switch
brought into the normal form, it leaves as it is. -/
theorem route_of_sameNumber {settings : Settings} {x y : Exchange}
    (hx : Session Settings.limits (Exchange.start settings) x)
    (hy : Session Settings.limits x y) (p : DialPlan)
    (hcode : ∀ c ∈ p.switch.countryCode.toList, Text.isDialDigit c = true)
    (hne : p.switch.countryCode ≠ "") :
    (∀ (destination destination' : String) (sender sender' : Option String)
        (direction : Option Direction),
      Number.SameNumber p.switch.countryCode destination destination' →
      Number.SameSender p.switch.countryCode sender sender' →
      (p.route destination sender direction x).1 =
        (p.route destination' sender' direction y).1) ∧
      ∀ (settings' : Settings) (number : String),
        p.switch.normalize settings' (p.switch.normalize settings' number) =
          p.switch.normalize settings' number := by
  have hxf : x.Faithful := hx.faithful (fun _ _ h => h) (Exchange.faithful_start settings)
  have hyf : y.Faithful := hy.faithful (fun _ _ h => h) hxf
  have hlimits : x.settings.limits = y.settings.limits := hy.kept_eq.symm
  have hcountry : p.switch.countryCode.isEmpty = false := by simpa using hne
  refine ⟨fun destination destination' sender sender' direction hdestination hsender => ?_,
    fun settings' number => ?_⟩
  · rw [Neutral.answer x hxf, Neutral.answer y hyf]
    change decision _ (firstPlan _ _ _ _) = decision _ (firstPlan _ _ _ _)
    simp only [decision_firstPlan,
      Switch.decision_route_congr hlimits hcode hne hdestination hsender]
  · simp only [Switch.normalize_eq_of_ne _ _ _ hcountry, Number.normalize_normalize hcode]

/-- National numbers with the parts set apart, and the same numbers with the country code. -/
theorem route_of_sameNumber_parentheses :
    (route ⟨[{ id := "a", receiverAddress := "1202*", senderAddress := "1303*" }], ⟨"1", true⟩⟩
        "(202) 555-0123" (some "303-555-0100") none (Exchange.start {})).1 =
      (route ⟨[{ id := "a", receiverAddress := "1202*", senderAddress := "1303*" }], ⟨"1", true⟩⟩
        "+12025550123" (some "13035550100") none (Exchange.start {})).1 := by
  have hcode : ∀ c ∈ ("1" : String).toList, Text.isDialDigit c = true :=
    List.all_eq_true.mp (by decide)
  have hne : ("1" : String) ≠ "" := by decide +kernel
  have hstart : Session Settings.limits (Exchange.start {}) (Exchange.start {}) := .refl
  have hdestination : Number.SameNumber "1" "(202) 555-0123" "+12025550123" := by
    rw [Number.sameNumber_iff hcode hne]
    decide +kernel
  have hsender : Number.SameNumber "1" "303-555-0100" "13035550100" := by
    rw [Number.sameNumber_iff hcode hne]
    decide +kernel
  exact (route_of_sameNumber hstart .refl ⟨_, ⟨"1", true⟩⟩ hcode hne).1 _ _ _ _ none hdestination
    (.some (by decide +kernel) (by decide +kernel) hsender)

end DialPlan

end CallRouting

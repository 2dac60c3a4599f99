import CallRouting.Proofs.AreaCodes
import CallRouting.Proofs.Dialling

/-!
# National numbers in every dialled form

A national number can be dialled alone, behind the country code, or behind a plus sign and the
country code, and in all three forms with formatting anywhere in it.

* **Formatting** (`Number.SetApart`, `Number.setApart_iff`): what formatting can be put into is what
  is left of the text without it.
* **Forms** (`Number.NationalForm`, `Number.addPrefix_eq_iff`): of the texts without formatting,
  three get the prefix of one national number.
* **Numbers** (`Number.Dials`, `Number.dials_iff`): the texts that dial a national number are those
  that have its normal form.
* **Classes** (`Switch.classify_of_dials`): a switch classes all of them alike, by the area code and
  the pattern of the route.
-/

namespace CallRouting

namespace Number

/-! ## Formatting -/

/-- A text, written with formatting anywhere in it. -/
inductive SetApart : List Char → List Char → Prop
  | nil : SetApart [] []
  | keep {cs written : List Char} (c : Char) (h : SetApart cs written) :
      SetApart (c :: cs) (c :: written)
  | insert {cs written : List Char} {c : Char} (hc : c ∈ ['-', '(', ')', ' '])
      (h : SetApart cs written) : SetApart cs (c :: written)

/-- Formatting is one of four characters. -/
theorem isFormatting_iff {c : Char} : isFormatting c = true ↔ c ∈ ['-', '(', ')', ' '] := by
  simp [isFormatting, or_assoc]

/-- Formatting that is put in does not change what is left without it. -/
theorem SetApart.bare_eq {cs written : List Char} (h : SetApart cs written) :
    bare written = bare cs := by
  induction h with
  | nil => rfl
  | keep c _ ih => rw [bare, bare, List.filter_cons, List.filter_cons, ← bare, ← bare, ih]
  | insert hc _ ih =>
    rw [bare, List.filter_cons_of_neg (by simp [isFormatting_iff.mpr hc]), ← bare, ih]

/-- Every text is what is left without formatting, with formatting put in. -/
theorem setApart_bare (written : List Char) : SetApart (bare written) written := by
  induction written with
  | nil => exact .nil
  | cons c written ih =>
    cases hc : isFormatting c with
    | true =>
      rw [bare, List.filter_cons_of_neg (by simp [hc])]
      exact .insert (isFormatting_iff.mp hc) ih
    | false =>
      rw [bare, List.filter_cons_of_pos (by simp [hc])]
      exact .keep c ih

/-- **A text without formatting is what is left of the texts that it can be written as.** -/
theorem setApart_iff {cs written : List Char} (hbare : bare cs = cs) :
    SetApart cs written ↔ bare written = cs := by
  constructor
  · intro h
    rw [h.bare_eq, hbare]
  · rintro rfl
    exact setApart_bare written

/-! ## Forms -/

/-- The forms of a national number without formatting: alone, behind the country code, and behind a
plus sign and the country code. -/
inductive NationalForm (code ds : List Char) : List Char → Prop
  | alone : NationalForm code ds ds
  | withCode : NationalForm code ds (code ++ ds)
  | withPlus : NationalForm code ds ('+' :: (code ++ ds))

variable {code ds form : List Char}

/-- A form of digits has no formatting. -/
theorem NationalForm.bare_eq (hcode : ∀ c ∈ code, Text.isDigit c = true)
    (hds : ∀ c ∈ ds, Text.isDigit c = true) (h : NationalForm code ds form) :
    bare form = form := by
  have hkept : ∀ cs : List Char, (∀ c ∈ cs, Text.isDigit c = true) → bare cs = cs := by
    intro cs hcs
    exact List.filter_eq_self.mpr fun c hc => by simp [isFormatting_of_isDigit (hcs c hc)]
  have hboth : ∀ c ∈ code ++ ds, Text.isDigit c = true := List.forall_mem_append.mpr ⟨hcode, hds⟩
  cases h with
  | alone => exact hkept ds hds
  | withCode => exact hkept _ hboth
  | withPlus => rw [bare_plus, hkept _ hboth]

/-- Digits do not start with a plus sign. -/
theorem head?_ne_plus (hds : ∀ c ∈ ds, Text.isDigit c = true) : ds.head? ≠ some '+' := by
  intro hhead
  exact ne_plus_of_isDigit (hds '+' (List.mem_of_mem_head? hhead)) rfl

/-- **Three texts get the prefix of a national number.** -/
theorem addPrefix_eq_iff (hne : code ≠ []) (hcode : ∀ c ∈ code, Text.isDigit c = true)
    (hlength : ds.length = nationalLength) (hds : ∀ c ∈ ds, Text.isDigit c = true) :
    addPrefix code form = '+' :: (code ++ ds) ↔ NationalForm code ds form := by
  have hpositive : 0 < code.length := List.length_pos_of_ne_nil hne
  have hboth : ∀ c ∈ code ++ ds, Text.isDigit c = true := List.forall_mem_append.mpr ⟨hcode, hds⟩
  have hcoded : (code ++ ds).length = nationalLength + code.length := by
    rw [List.length_append, hlength, Nat.add_comm]
  constructor
  · intro h
    unfold addPrefix at h
    split_ifs at h with hplus hnational hprefixed
    · rw [h]
      exact .withPlus
    · obtain rfl := List.append_cancel_left (List.cons.inj h).2
      exact .alone
    · rw [(List.cons.inj h).2]
      exact .withCode
    · -- a number that gets no prefix has no plus sign either
      exact absurd (congrArg List.head? h) hplus
  · intro h
    cases h with
    | alone => rw [addPrefix, if_neg (head?_ne_plus hds), if_pos hlength, List.cons_append]
    | withCode =>
      have hlonger : (code ++ ds).length ≠ nationalLength := by omega
      have hprefix : code.isPrefixOf (code ++ ds) = true :=
        List.isPrefixOf_iff_prefix.mpr (List.prefix_append code ds)
      rw [addPrefix, if_neg (head?_ne_plus hboth), if_neg hlonger, if_pos ⟨hcoded, hprefix⟩]
    | withPlus => exact addPrefix_plus code (code ++ ds)

/-! ## Numbers -/

/-- Whether a text dials a national number under a country code: in one of its three forms, with
formatting anywhere. -/
def Dials (code national address : String) : Prop :=
  ∃ form, NationalForm code.toList national.toList form ∧ SetApart form address.toList

/-- **The texts that dial a national number are those that have its normal form.** -/
theorem dials_iff {code national address : String} (hne : code ≠ "")
    (hcode : ∀ c ∈ code.toList, Text.isDigit c = true)
    (hlength : national.toList.length = nationalLength)
    (hnational : ∀ c ∈ national.toList, Text.isDigit c = true) :
    Dials code national address ↔
      normalize code address = String.ofList ('+' :: (code.toList ++ national.toList)) := by
  have hnil : code.toList ≠ [] := fun h => hne (String.toList_eq_nil_iff.mp h)
  rw [normalize, String.ofList_inj, addPrefix_eq_iff hnil hcode hlength hnational]
  constructor
  · rintro ⟨form, hform, hwritten⟩
    rw [(setApart_iff (hform.bare_eq hcode hnational)).mp hwritten]
    exact hform
  · intro hform
    exact ⟨_, hform, setApart_bare _⟩

end Number

/-! ## Classes -/

namespace Switch

/-- **National numbers are recognised in every dialled form.** The country code is of digits and
not empty. A text that dials a number of ten digits, in any form and with formatting anywhere, is
toll-free exactly if the first three of the ten digits are a toll-free area code. If they are not,
it is local or long-distance, by the leading digits of the pattern. So it is never international,
and never of no class. -/
theorem classify_of_dials {s : Switch} {national address : String} (hne : s.countryCode ≠ "")
    (hcode : ∀ c ∈ s.countryCode.toList, Text.isDigit c = true)
    (hlength : national.toList.length = 10)
    (hnational : ∀ c ∈ national.toList, Text.isDigit c = true)
    (haddress : Number.Dials s.countryCode national address) (settings : Settings)
    (pattern : String) :
    (s.classify (s.normalize settings address) pattern = .tollFree ↔
        String.ofList (national.toList.take 3) ∈ Settings.tollFreeAreaCodes) ∧
      (String.ofList (national.toList.take 3) ∉ Settings.tollFreeAreaCodes →
        s.classify (s.normalize settings address) pattern =
          if 4 ≤ CallClass.leadingDigits pattern then .localCall else .longDistance) ∧
      s.classify (s.normalize settings address) pattern ≠ .international ∧
      s.classify (s.normalize settings address) pattern ≠ .unknown := by
  have hcountry : s.countryCode.isEmpty = false := by simpa using hne
  have hnil : s.countryCode.toList ≠ [] := fun h => hne (String.toList_eq_nil_iff.mp h)
  have hboth : ∀ c ∈ s.countryCode.toList ++ national.toList, Text.isDigit c = true :=
    List.forall_mem_append.mpr ⟨hcode, hnational⟩
  have hclass : s.classify (s.normalize settings address) pattern =
      if String.ofList (national.toList.take 3) ∈ Settings.tollFreeAreaCodes then .tollFree
      else if 4 ≤ CallClass.leadingDigits pattern then .localCall
      else .longDistance := by
    rw [normalize_eq_of_ne _ _ _ hcountry,
      (Number.dials_iff hne hcode hlength hnational).mp haddress, classify, CallClass.ofNumber,
      Number.digits_plus hboth, String.toList_ofList, CallClass.ofDigits_national hnil hlength]
  rw [hclass]
  split_ifs with hfree hlead <;> simp [hfree]

/-- A toll-free number under a country code of two digits, with formatting in front of the plus sign
and inside of the country code. -/
theorem classify_of_dials_parentheses :
    (⟨"44", true⟩ : Switch).classify
        ((⟨"44", true⟩ : Switch).normalize {} "(+4-4) 800-555-0123") "44NXX*" = .tollFree := by
  have hcode : ∀ c ∈ ("44" : String).toList, Text.isDigit c = true :=
    List.all_eq_true.mp (by decide +kernel)
  have hnational : ∀ c ∈ ("8005550123" : String).toList, Text.isDigit c = true :=
    List.all_eq_true.mp (by decide +kernel)
  have hne : ("44" : String) ≠ "" := by decide +kernel
  have hdials : Number.Dials "44" "8005550123" "(+4-4) 800-555-0123" := by
    rw [Number.dials_iff hne hcode (by decide +kernel) hnational]
    decide +kernel
  exact (classify_of_dials (s := ⟨"44", true⟩) hne hcode (by decide +kernel) hnational hdials {}
    "44NXX*").1.mpr (by decide +kernel)

end Switch

end CallRouting

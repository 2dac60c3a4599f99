import CallRouting.Proofs.Alternation
import CallRouting.Proofs.AreaCodes

/-!
# Stems as number patterns

A route for all numbers that start with certain digits is written as the digits and a star, and
decided by comparing texts. Two number patterns say the same: the digits with a rest behind them,
and the digits with any number of any characters behind them. These are searched, atom by atom.

* **Literals** (`Pattern.cuttable_literals_append_iff`): characters that stand for themselves take
  the text that they are.
* **Open ends** (`Pattern.OpenEnd`, `Pattern.parse_openEnd`): the two ways for a number pattern to
  take all that is left, and the pattern that is read from digits with an open end.
* **Together** (`Switch.accepts_stem`): all three forms answer whether the text starts with the
  digits, unless the digits are too many for the search.
-/

namespace CallRouting

open Exchange (decision Neutral Session)

namespace Pattern

/-! ## Literals -/

/-- The pieces of characters that stand for themselves. -/
def literals (us : List Char) : List Piece := us.map fun c => .single (.literal c) none

/-- Literals take the text that they are. -/
theorem cuttable_literals_iff {us cs : List Char} : Cuttable (literals us) cs ↔ us = cs := by
  have hclasses : literals us = (us.map CharClass.literal).map (Piece.single · none) := by
    rw [literals, List.map_map]
    rfl
  rw [hclasses, cuttable_singles_iff, List.forall₂_map_left_iff, ← List.forall₂_eq_eq_eq]
  constructor
  · intro h
    exact h.imp fun _ _ => Eq.symm
  · intro h
    exact h.imp fun _ _ => Eq.symm

/-- Literals take a beginning of the texts that start with them. -/
theorem begins_literals_iff {us cs : List Char} : Begins (literals us) cs ↔ us <+: cs := by
  unfold Begins
  simp only [cuttable_literals_iff, exists_eq_right']

/-- **Literals and a piece that takes everything** take the texts that start with the literals. -/
theorem cuttable_literals_append_iff {us cs : List Char} {piece : Piece}
    (hall : ∀ v, piece.Admits v) : Cuttable (literals us ++ [piece]) cs ↔ us <+: cs := by
  rw [cuttable_append_iff]
  constructor
  · rintro ⟨u, v, rfl, hu, -⟩
    rw [cuttable_literals_iff.mp hu]
    exact List.prefix_append u v
  · rintro ⟨v, rfl⟩
    refine ⟨us, v, rfl, cuttable_literals_iff.mpr rfl, ?_⟩
    exact cuttable_cons_iff.mpr ⟨v, [], List.append_nil v, hall v, cuttable_nil_iff.mpr rfl⟩

/-- A digit means itself in a number pattern. -/
theorem literal_of_isDigit {c : Char} (hc : Text.isDigit c = true) :
    c ∉ reserved ∧ CharClass.ofToken c = .literal c := by
  have hnone : (reserved ++ ['N', 'X', 'x', 'Z', '.']).any Text.isDigit = false := by decide
  have hother : c ∉ reserved ++ ['N', 'X', 'x', 'Z', '.'] := by
    intro hmem
    have hsome := List.any_eq_true.mpr ⟨c, hmem, hc⟩
    rw [hnone] at hsome
    cases hsome
  rw [List.mem_append, not_or] at hother
  refine ⟨hother.1, ?_⟩
  simp only [List.mem_cons, List.not_mem_nil, or_false, not_or] at hother
  obtain ⟨-, hN, hX, hx, hZ, hdot⟩ := hother
  rw [CharClass.ofToken, if_neg hN, if_neg hX, if_neg hx, if_neg hZ, if_neg hdot]

/-- Digits are spelled as literals. -/
theorem map_shape_spelled {stem : String} (hdigits : ∀ c ∈ stem.toList, Text.isDigit c = true) :
    (spelled stem).map Phrase.shape = literals stem.toList := by
  rw [spelled, List.map_map, literals]
  apply List.map_congr_left
  intro c hc
  exact congrArg (Piece.single · none) (literal_of_isDigit (hdigits c hc)).2

/-! ## Open ends -/

/-- How a number pattern takes all that is left. -/
inductive OpenEnd where
  /-- With a rest. -/
  | rest
  /-- With any number of any characters. -/
  | anyText
  deriving DecidableEq, Repr

namespace OpenEnd

/-- The phrase for an open end. -/
def phrase : OpenEnd → Phrase
  | rest => .plain 'Z' none
  | anyText => .plain '.' (some .anyNumber)

/-- An open end as it is written. -/
def text : OpenEnd → String
  | rest => "Z"
  | anyText => ".*"

/-- An open end is written as its phrase. -/
theorem textOf_phrase (tail : OpenEnd) : textOf [tail.phrase] = tail.text.toList := by
  cases tail <;> rfl

/-- An open end takes everything. -/
theorem admits_lastShape (tail : OpenEnd) (cs : List Char) : tail.phrase.lastShape.Admits cs := by
  cases tail with
  | rest => trivial
  | anyText => exact ⟨⟨Nat.zero_le _, fun high hhigh => by cases hhigh⟩, fun c _ => trivial⟩

/-- Behind digits an open end is no star of a route's pattern. -/
theorem isOpen_append (tail : OpenEnd) (stem : String) :
    RoutePattern.isOpen (stem ++ tail.text) = false := by
  have hkind : RoutePattern.ofString (stem ++ tail.text) = .pattern (stem ++ tail.text) := by
    unfold RoutePattern.ofString
    rw [String.toList_append, List.reverse_append]
    cases tail <;> rfl
  exact RoutePattern.isOpen_eq_false hkind

end OpenEnd

section OpenEnd

variable {limits : PatternLimits} {stem : String} (tail : OpenEnd)

/-- **The pattern that is read from digits with an open end.** -/
theorem parse_openEnd (hdigits : ∀ c ∈ stem.toList, Text.isDigit c = true)
    (hlength : (stem.length : Int) + 2 ≤ limits.maxLength) (hone : 1 ≤ limits.maxQuantifiers) :
    ∃ p, parse limits (stem ++ tail.text) = .ok p ∧ p.atoms.length = stem.length + 1 ∧
      p.shape = literals stem.toList ++ [tail.phrase.lastShape] := by
  refine ⟨ofPhrases (stem ++ tail.text) (spelled stem ++ [tail.phrase]), ?_, ?_, ?_⟩
  · apply parse_eq_ok_iff.mpr
    refine ⟨?_, spelled stem ++ [tail.phrase], ?_, ⟨?_, ?_⟩, ?_, rfl⟩
    · have htwo : tail.text.length ≤ 2 := by
        cases tail <;> decide
      rw [String.length_toList, String.length_append]
      omega
    · exact List.concat_ne_nil _ _
    · intro u hu
      rcases List.mem_append.mp hu with hu | hu
      · obtain ⟨c, hc, rfl⟩ := List.mem_map.mp hu
        exact (literal_of_isDigit (hdigits c hc)).1
      · rw [List.mem_singleton.mp hu]
        cases tail <;> decide
    · right
      have hfew : quantifiedCount [tail.phrase] ≤ 1 := by
        cases tail <;> decide
      rw [quantifiedCount_append, quantifiedCount_spelled]
      omega
    · rw [textOf_append, textOf_spelled, tail.textOf_phrase, String.toList_append]
  · rw [length_atoms_ofPhrases, List.length_append, spelled, List.length_map, String.length_toList]
    rfl
  · rw [shape_ofPhrases_concat, map_shape_spelled hdigits]

/-- **What digits with an open end fit.** -/
theorem decision_fits_openEnd {settings : Settings}
    (hdigits : ∀ c ∈ stem.toList, Text.isDigit c = true)
    (hlength : (stem.length : Int) + 2 ≤ settings.limits.maxLength)
    (hone : 1 ≤ settings.limits.maxQuantifiers) (text : String) :
    decision settings (Exchange.fits (stem ++ tail.text) text) =
      if settings.limits.room ≤ stem.length ∧
          stem.toList.take settings.limits.room <+: text.toList then
        .error .tooDeep
      else .ok (stem.toList.isPrefixOf text.toList) := by
  obtain ⟨p, hparse, hatoms, hshape⟩ := parse_openEnd tail hdigits hlength hone
  have hdeep : p.tooDeep settings.limits.room text = true ↔
      settings.limits.room ≤ stem.length ∧
        stem.toList.take settings.limits.room <+: text.toList := by
    rw [tooDeep_iff_begins hparse, hatoms, Nat.lt_succ_iff]
    apply and_congr_right
    intro hlong
    have hfirst : p.shape.take settings.limits.room =
        literals (stem.toList.take settings.limits.room) := by
      rw [hshape, List.take_append_of_le_length, literals, literals, List.map_take]
      rwa [literals, List.length_map, String.length_toList]
    rw [hfirst, begins_literals_iff]
  have hfits : p.fits text = stem.toList.isPrefixOf text.toList := by
    rw [Bool.eq_iff_iff, fits_iff_cuttable hparse, hshape,
      cuttable_literals_append_iff tail.admits_lastShape, List.isPrefixOf_iff_prefix]
  rw [decision_fits_of_parse hparse, hfits]
  simp only [hdeep]

end OpenEnd

end Pattern

/-! ## Together -/

namespace Switch

variable {settings : Settings} {x : Exchange} {stem : String}

/-- **The answer of digits and a star.** -/
theorem accepts_star (hx : Session Settings.limits (Exchange.start settings) x)
    (hdigits : ∀ c ∈ stem.toList, Text.isDigit c = true) (digits : String) :
    (accepts (stem ++ "*") digits x).1 = .ok (stem.toList.isPrefixOf digits.toList) := by
  have hfaithful : x.Faithful := hx.faithful (fun _ _ h => h) (Exchange.faithful_start settings)
  rw [Neutral.answer x hfaithful, decision_accepts]
  by_cases hempty : stem = ""
  · rw [hempty]
    rfl
  · have hne : stem.toList ≠ [] := mt String.toList_eq_nil_iff.mp hempty
    have hstar : stem ++ "*" = String.ofList (stem.toList ++ ['*']) := by
      rw [String.ofList_append, String.ofList_toList]
    rw [hstar, RoutePattern.ofString_stem hne hdigits]

/-- **The answer of digits with an open end.** -/
theorem accepts_openEnd (hx : Session Settings.limits (Exchange.start settings) x)
    (hdigits : ∀ c ∈ stem.toList, Text.isDigit c = true)
    (hlength : (stem.length : Int) + 2 ≤ settings.limits.maxLength)
    (hone : 1 ≤ settings.limits.maxQuantifiers) (tail : Pattern.OpenEnd) (digits : String) :
    (accepts (stem ++ tail.text) digits x).1 =
      if settings.limits.room ≤ stem.length ∧
        stem.toList.take settings.limits.room <+: digits.toList then .error .tooDeep
      else .ok (stem.toList.isPrefixOf digits.toList) := by
  have hfaithful : x.Faithful := hx.faithful (fun _ _ h => h) (Exchange.faithful_start settings)
  have hlimits : x.settings.limits = settings.limits := hx.kept_eq
  rw [← hlimits] at hlength hone ⊢
  rw [Neutral.answer x hfaithful, decision_accepts,
    RoutePattern.ofString_of_isOpen_eq_false (tail.isOpen_append stem)]
  exact Pattern.decision_fits_openEnd tail hdigits hlength hone digits

/-- A form with an open end is one of two. -/
theorem exists_openEnd {form : String} (h : form ∈ ["Z", ".*"]) :
    ∃ tail : Pattern.OpenEnd, form = tail.text := by
  simp only [List.mem_cons, List.not_mem_nil, or_false] at h
  rcases h with rfl | rfl
  · exact ⟨.rest, rfl⟩
  · exact ⟨.anyText, rfl⟩

/-- **Digits and a star say what the digits with an open end say.** In every session that keeps the
limits of patterns: digits and a star are answered by whether the text starts with the digits. The
digits with a rest behind them, and with any number of any characters behind them, are answered
alike, unless the digits leave no room for the search of the end, and the text starts with as many
of them as there is room for. So all three forms agree if the limit of lengths keeps within the
room, and without digits all of them accept every text, as long as there is room for one atom. -/
theorem accepts_stem_forms (hx : Session Settings.limits (Exchange.start settings) x)
    (hdigits : ∀ c ∈ stem.toList, Text.isDigit c = true)
    (hlength : (stem.length : Int) + 2 ≤ settings.limits.maxLength)
    (hone : 1 ≤ settings.limits.maxQuantifiers) (digits : String) :
    (accepts (stem ++ "*") digits x).1 = .ok (stem.toList.isPrefixOf digits.toList) ∧
      (∀ form ∈ ["Z", ".*"], (accepts (stem ++ form) digits x).1 =
        if settings.limits.room ≤ stem.length ∧
          stem.toList.take settings.limits.room <+: digits.toList then .error .tooDeep
        else .ok (stem.toList.isPrefixOf digits.toList)) ∧
      (settings.limits.maxLength ≤ settings.limits.room → ∀ form ∈ ["*", "Z", ".*"],
        (accepts (stem ++ form) digits x).1 = .ok (stem.toList.isPrefixOf digits.toList)) ∧
      (stem = "" → 0 < settings.limits.room →
        ∀ form ∈ ["*", "Z", ".*"], (accepts form digits x).1 = .ok true) := by
  have hstar := accepts_star hx hdigits digits
  have hends : ∀ form ∈ ["Z", ".*"], (accepts (stem ++ form) digits x).1 =
      if settings.limits.room ≤ stem.length ∧
        stem.toList.take settings.limits.room <+: digits.toList then .error .tooDeep
      else .ok (stem.toList.isPrefixOf digits.toList) := by
    intro form hform
    obtain ⟨tail, rfl⟩ := exists_openEnd hform
    exact accepts_openEnd hx hdigits hlength hone tail digits
  have hfew : stem.length < settings.limits.room → ∀ form ∈ ["*", "Z", ".*"],
      (accepts (stem ++ form) digits x).1 = .ok (stem.toList.isPrefixOf digits.toList) := by
    intro hroom form hform
    rcases List.mem_cons.mp hform with rfl | hend
    · exact hstar
    · rw [hends form hend, if_neg]
      intro hmany
      exact absurd hmany.1 (Nat.not_le.mpr hroom)
  refine ⟨hstar, hends, ?_, ?_⟩
  · intro hroom
    apply hfew
    omega
  · rintro rfl hroom form hform
    have hall := hfew hroom form hform
    rwa [String.empty_append] at hall

/-- Digits of other scripts stand for themselves in all three forms. -/
theorem accepts_stem_forms_superscript :
    (∀ c ∈ "1²".toList, Text.isDigit c = true) ∧
      (∀ form ∈ ["*", "Z", ".*"],
        (accepts ("1²" ++ form) "1²³" (Exchange.start {})).1 = .ok true ∧
        (accepts ("1²" ++ form) "12" (Exchange.start {})).1 = .ok false) ∧
      ∀ form ∈ ["*", "Z", ".*"], (accepts form "" (Exchange.start {})).1 = .ok true := by
  have hstart : Session Settings.limits (Exchange.start {}) (Exchange.start {}) := .refl
  have hdigits : ∀ c ∈ "1²".toList, Text.isDigit c = true := List.all_eq_true.mp (by decide)
  have hnone : ∀ c ∈ "".toList, Text.isDigit c = true := List.forall_mem_nil _
  have hforms := accepts_stem_forms hstart hdigits (by decide) (by decide)
  obtain ⟨-, -, hlonger, -⟩ := hforms "1²³"
  obtain ⟨-, -, hother, -⟩ := hforms "12"
  obtain ⟨-, -, -, hempty⟩ := accepts_stem_forms hstart hnone (by decide) (by decide) ""
  refine ⟨hdigits, ?_, hempty rfl (by decide)⟩
  intro form hform
  exact ⟨hlonger (by decide) form hform, hother (by decide) form hform⟩

/-- Three thousand digits and a star are accepted, and with an open end there is no room for the
search. -/
theorem accepts_stem_forms_tooDeep :
    ∃ (settings : Settings) (stem : String),
      settings.rooms = {} ∧ stem ≠ "" ∧ (∀ c ∈ stem.toList, Text.isDigit c = true) ∧
      1 ≤ settings.limits.maxQuantifiers ∧
      (∃ p, Pattern.parse settings.limits (stem ++ "Z") = .ok p) ∧
      (∃ p, Pattern.parse settings.limits (stem ++ ".*") = .ok p) ∧
      (accepts (stem ++ "*") stem (Exchange.start settings)).1 = .ok true ∧
      (accepts (stem ++ "Z") stem (Exchange.start settings)).1 = .error .tooDeep ∧
      (accepts (stem ++ ".*") stem (Exchange.start settings)).1 = .error .tooDeep := by
  have hdigits : ∀ c ∈ (String.ofList (List.replicate 3000 '1')).toList,
      Text.isDigit c = true := by
    intro c hc
    rw [String.toList_ofList] at hc
    rw [List.eq_of_mem_replicate hc]
    decide
  have hcount : (String.ofList (List.replicate 3000 '1')).length = 3000 := by
    rw [String.length_ofList, List.length_replicate]
  generalize String.ofList (List.replicate 3000 '1') = stem at hdigits hcount
  let settings : Settings := { maxPatternLength := 10000 }
  have hlength : (stem.length : Int) + 2 ≤ settings.limits.maxLength := by
    rw [hcount]
    decide
  have hstart : Session Settings.limits (Exchange.start settings) (Exchange.start settings) := .refl
  have hparse : ∀ tail : Pattern.OpenEnd,
      ∃ p, Pattern.parse settings.limits (stem ++ tail.text) = .ok p := by
    intro tail
    obtain ⟨p, hp, -⟩ := Pattern.parse_openEnd tail hdigits hlength (by decide)
    exact ⟨p, hp⟩
  have hdeep : ∀ tail : Pattern.OpenEnd,
      (accepts (stem ++ tail.text) stem (Exchange.start settings)).1 = .error .tooDeep := by
    intro tail
    rw [accepts_openEnd hstart hdigits hlength (by decide), if_pos]
    refine ⟨?_, List.take_prefix _ _⟩
    rw [hcount]
    decide
  refine ⟨settings, stem, rfl, ?_, hdigits, by decide, hparse .rest, hparse .anyText, ?_,
    hdeep .rest,
    hdeep .anyText⟩
  · rintro rfl
    cases hcount
  · have hself : stem.toList.isPrefixOf stem.toList = true :=
      List.isPrefixOf_iff_prefix.mpr (List.prefix_refl _)
    rw [accepts_star hstart hdigits, hself]

end Switch

end CallRouting

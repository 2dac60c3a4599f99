import CallRouting.Proofs.Concatenation

/-!
# A group stands for each of its alternatives

A pattern with a group in it fits the texts that the pattern fits in which one of the alternatives
stands in place of the group. The characters of an alternative mean the same inside the brackets as
outside, as long as they are plain (`IsPlain`), and whatever follows the group is tried again for
each alternative. Parentheses inside the brackets change nothing.

* **Around a middle** (`shape_of_parse_around`, `exists_parse_around`): the pattern that is read from
  a middle with something before and behind it, for any phrases in the middle.
* **One group** (`cuttable_group_iff`): what a group can stand for is what one of its alternatives
  can stand for, written out.
* **Fitting** (`fits_alternation`), and where it fails for lack of room (`fits_alternation_tooDeep`).
-/

namespace CallRouting.Pattern

open Exchange (decision fitTo)

/-! ## Around a middle -/

section Around

variable {limits : PatternLimits} {left middle right : String} {us ms vs : List Phrase}
  {q r : Pattern}

/-- A text that is empty or a pattern is a text of phrases. -/
theorem exists_phrases (h : left = "" ∨ ∃ p, parse limits left = .ok p) :
    ∃ us, (∀ u ∈ us, Phrase.WellFormed u) ∧ textOf us = left.toList := by
  rcases h with rfl | ⟨p, hp⟩
  · exact ⟨[], List.forall_mem_nil _, rfl⟩
  · obtain ⟨-, us, -, hus, htext, -⟩ := parse_eq_ok_iff.mp hp
    exact ⟨us, hus.wellFormed, htext⟩

/-- The phrases of three parts are written as the parts are. -/
theorem textOf_around (hleft : textOf us = left.toList) (hmiddle : textOf ms = middle.toList)
    (hright : textOf vs = right.toList) :
    textOf (us ++ ms ++ vs) = (left ++ middle ++ right).toList := by
  rw [textOf_append, textOf_append, hleft, hmiddle, hright, String.toList_append,
    String.toList_append]

/-- The phrases of three parts are well formed if those of each part are. -/
theorem wellFormed_around (hus : ∀ u ∈ us, u.WellFormed) (hms : ∀ u ∈ ms, u.WellFormed)
    (hvs : ∀ u ∈ vs, u.WellFormed) : ∀ u ∈ us ++ ms ++ vs, u.WellFormed :=
  List.forall_mem_append.mpr ⟨List.forall_mem_append.mpr ⟨hus, hms⟩, hvs⟩

/-- The limit of quantifiers, asked of phrases in front of a pattern. -/
def QuantifiersWithin (limits : PatternLimits) (us : List Phrase) (q : Pattern) : Prop :=
  quantifiedCount us + q.quantified = 0 ∨
    ((quantifiedCount us + q.quantified : Nat) : Int) ≤ limits.maxQuantifiers

/-- **What a pattern in three parts is like**: its shape is put together from those of the parts,
and the quantifiers of the parts keep the limit. -/
theorem shape_of_parse_around (hus : ∀ u ∈ us, u.WellFormed) (hleft : textOf us = left.toList)
    (hms : ∀ u ∈ ms, u.WellFormed) (hmiddle : textOf ms = middle.toList)
    (hq : parse limits right = .ok q) (hr : parse limits (left ++ middle ++ right) = .ok r) :
    r.shape = us.map Phrase.shape ++ ms.map Phrase.shape ++ q.shape ∧
      QuantifiersWithin limits (us ++ ms) q := by
  obtain ⟨-, vs, hvs, hvs', hright, rfl⟩ := parse_eq_ok_iff.mp hq
  obtain ⟨hlength, ws, -, hws, htext, rfl⟩ := parse_eq_ok_iff.mp hr
  have hall := textOf_around hleft hmiddle hright
  have hwf := wellFormed_around hus hms hvs'.wellFormed
  have hadm := hws.of_textOf_eq hwf (htext.trans hall.symm)
  have hparse : parse limits (left ++ middle ++ right) =
      .ok (ofPhrases (left ++ middle ++ right) (us ++ ms ++ vs)) :=
    parse_eq_ok_iff.mpr ⟨hlength, _, List.append_ne_nil_of_right_ne_nil _ hvs, hadm, hall, rfl⟩
  rw [hr] at hparse
  rw [Except.ok.inj hparse, shape_ofPhrases_append _ right _ hvs, List.map_append,
    QuantifiersWithin, quantified_ofPhrases, ← quantifiedCount_append]
  exact ⟨rfl, hadm.within⟩

/-- **Three parts make a pattern** if they keep the limits. -/
theorem exists_parse_around (hus : ∀ u ∈ us, u.WellFormed) (hleft : textOf us = left.toList)
    (hms : ∀ u ∈ ms, u.WellFormed) (hmiddle : textOf ms = middle.toList)
    (hq : parse limits right = .ok q)
    (hlength : ((left ++ middle ++ right).length : Int) ≤ limits.maxLength)
    (hquantified : QuantifiersWithin limits (us ++ ms) q) :
    ∃ r, parse limits (left ++ middle ++ right) = .ok r := by
  obtain ⟨-, vs, hvs, hvs', hright, rfl⟩ := parse_eq_ok_iff.mp hq
  rw [QuantifiersWithin, quantified_ofPhrases, ← quantifiedCount_append] at hquantified
  have hall := textOf_around hleft hmiddle hright
  have hwf := wellFormed_around hus hms hvs'.wellFormed
  exact ⟨_, parse_eq_ok_iff.mpr ⟨by rwa [String.length_toList], us ++ ms ++ vs,
    List.append_ne_nil_of_right_ne_nil _ hvs, ⟨hwf, hquantified⟩, hall, rfl⟩⟩

end Around

/-! ## Alternatives in and out of brackets -/

/-- A group as it is written. -/
def bracketed (alternatives : List String) : String :=
  "[" ++ "|".intercalate alternatives ++ "]"

/-- Whether the characters of an alternative mean the same inside brackets as outside: it is not
empty, and none of its characters is reserved or a parenthesis. -/
structure IsPlain (a : String) : Prop where
  filled : a ≠ ""
  unreserved : ∀ c ∈ a.toList, c ∉ reserved ∧ c ≠ '(' ∧ c ≠ ')'

/-- Whether an alternative is plain is seen character by character. -/
instance (a : String) : Decidable (IsPlain a) :=
  decidable_of_iff (a ≠ "" ∧ a.toList.all (fun c => c ∉ reserved ∧ c ≠ '(' ∧ c ≠ ')') = true)
    ⟨fun ⟨hfilled, hall⟩ =>
      ⟨hfilled, fun c hc => of_decide_eq_true (List.all_eq_true.mp hall c hc)⟩,
    fun h => ⟨h.filled, List.all_eq_true.mpr fun c hc => decide_eq_true (h.unreserved c hc)⟩⟩

/-- The phrases of a plain alternative outside of brackets, one for each character. -/
def spelled (a : String) : List Phrase := a.toList.map fun c => .plain c none

/-- A group is written as its phrase. -/
theorem toList_bracketed (alternatives : List String) :
    (bracketed alternatives).toList = (Phrase.group (alternatives.map String.toList)).text := by
  rw [bracketed, String.toList_append, String.toList_append, String.toList_intercalate,
    Phrase.text]
  rfl

/-- Outside of brackets an alternative is written as it is. -/
theorem textOf_spelled (a : String) : textOf (spelled a) = a.toList := by
  rw [spelled, textOf, List.flatMap_map]
  exact List.flatMap_singleton' _

/-- Outside of brackets an alternative has no quantifier. -/
theorem quantifiedCount_spelled (a : String) : quantifiedCount (spelled a) = 0 := by
  rw [spelled, quantifiedCount, List.countP_map]
  exact List.countP_eq_zero.mpr fun _ _ => by simp [Phrase.isQuantified]

namespace IsPlain

variable {a : String}

/-- Outside of brackets a plain alternative is well formed. -/
theorem wellFormed_spelled (h : IsPlain a) : ∀ u ∈ spelled a, u.WellFormed := by
  intro u hu
  obtain ⟨c, hc, rfl⟩ := List.mem_map.mp hu
  exact (h.unreserved c hc).1

/-- A plain alternative has no parentheses. -/
theorem bare_eq (h : IsPlain a) : bare a.toList = a.toList :=
  List.filter_eq_self.mpr fun c hc => decide_eq_true (h.unreserved c hc).2

/-- An alternative that is plain without its parentheses is in order inside brackets. -/
theorem isAlternative {b : List Char} (h : IsPlain a) (hb : bare b = a.toList) :
    IsAlternative b := by
  constructor
  · intro c hc
    by_cases hparen : c ≠ '(' ∧ c ≠ ')'
    · have hmem : c ∈ a.toList := by
        rw [← hb]
        exact List.mem_filter.mpr ⟨hc, decide_eq_true hparen⟩
      have hres := (h.unreserved c hmem).1
      refine ⟨?_, ?_, ?_⟩ <;> rintro rfl <;> exact hres (by decide)
    · rw [not_and_or, not_not, not_not] at hparen
      rcases hparen with rfl | rfl <;> decide
  · obtain ⟨c, hc⟩ : ∃ c, c ∈ bare b := by
      rw [hb]
      refine List.exists_mem_of_ne_nil _ fun hnil => h.filled ?_
      rw [← String.toList_inj, hnil]
      rfl
    obtain ⟨hmem, hparen⟩ := List.mem_filter.mp hc
    exact ⟨c, hmem, of_decide_eq_true hparen⟩

end IsPlain

/-- Outside of brackets an alternative is cut character by character. -/
theorem cuttable_spelled_iff {a : String} {cs : List Char} :
    Cuttable ((spelled a).map Phrase.shape) cs ↔
      List.Forall₂ (fun c d => (CharClass.ofToken c).Holds d) a.toList cs := by
  have hclasses : (spelled a).map Phrase.shape =
      (a.toList.map CharClass.ofToken).map (Piece.single · none) := by
    rw [spelled, List.map_map, List.map_map]
    rfl
  rw [hclasses, cuttable_singles_iff, List.forall₂_map_left_iff]

/-- **A group stands for what one of its alternatives stands for, written out.** -/
theorem cuttable_group_iff {alternatives : List String} (h : ∀ a ∈ alternatives, IsPlain a)
    {cs : List Char} :
    Cuttable ([Phrase.group (alternatives.map String.toList)].map Phrase.shape) cs ↔
      ∃ a ∈ alternatives, Cuttable ((spelled a).map Phrase.shape) cs := by
  have hone : Cuttable ([Phrase.group (alternatives.map String.toList)].map Phrase.shape) cs ↔
      (Phrase.group (alternatives.map String.toList)).shape.Admits cs := by
    rw [List.map_singleton, cuttable_cons_iff]
    constructor
    · rintro ⟨u, v, rfl, hu, hv⟩
      rwa [cuttable_nil_iff.mp hv, List.append_nil]
    · intro hcs
      exact ⟨cs, [], List.append_nil cs, hcs, cuttable_nil_iff.mpr rfl⟩
  rw [hone]
  simp only [Phrase.shape, Piece.Admits, List.mem_map, exists_exists_and_eq_and,
    List.forall₂_map_left_iff, cuttable_spelled_iff]
  refine exists_congr fun a => and_congr_right fun ha => ?_
  rw [(h a ha).bare_eq]

/-- Whatever stands around it, a group can be cut as one of its alternatives can. -/
theorem cuttable_around_group_iff {alternatives : List String} (h : ∀ a ∈ alternatives, IsPlain a)
    {ps qs : List Piece} {cs : List Char} :
    Cuttable
        (ps ++ [Phrase.group (alternatives.map String.toList)].map Phrase.shape ++ qs) cs ↔
      ∃ a ∈ alternatives, Cuttable (ps ++ (spelled a).map Phrase.shape ++ qs) cs := by
  simp only [cuttable_append_iff, cuttable_group_iff h]
  constructor
  · rintro ⟨_, w, hcs, ⟨u, v, huv, hu, a, ha, hv⟩, hw⟩
    exact ⟨a, ha, _, w, hcs, ⟨u, v, huv, hu, hv⟩, hw⟩
  · rintro ⟨a, ha, _, w, hcs, ⟨u, v, huv, hu, hv⟩, hw⟩
    exact ⟨_, w, hcs, ⟨u, v, huv, hu, a, ha, hv⟩, hw⟩

/-! ## The patterns with an alternative in place of the group -/

section Fitting

variable {settings : Settings} {limits : PatternLimits} {left right : String}
  {alternatives : List String} {us : List Phrase} {q r : Pattern}

/-- The phrase of a group of alternatives. -/
abbrev groupPhrase (alternatives : List String) : Phrase := .group (alternatives.map String.toList)

/-- A group is the text of its phrase. -/
theorem textOf_groupPhrase (alternatives : List String) :
    textOf [groupPhrase alternatives] = (bracketed alternatives).toList := by
  rw [textOf_cons, textOf_nil, List.append_nil, toList_bracketed]

/-- A group of plain alternatives is well formed, also with parentheses in them. -/
theorem wellFormed_groupPhrase (htwo : 2 ≤ alternatives.length)
    (hplain : ∀ a ∈ alternatives, IsPlain a) {marked : List String}
    (hmarked : marked.map (fun b => bare b.toList) = alternatives.map String.toList) :
    ∀ u ∈ [groupPhrase marked], u.WellFormed := by
  intro u hu
  rw [List.mem_singleton.mp hu]
  have hlength := congrArg List.length hmarked
  rw [List.length_map, List.length_map] at hlength
  refine ⟨by rw [List.length_map, hlength]; exact htwo, fun body hbody => ?_⟩
  obtain ⟨b, hb, rfl⟩ := List.mem_map.mp hbody
  have hmem : bare b.toList ∈ alternatives.map String.toList := by
    rw [← hmarked]
    exact List.mem_map_of_mem hb
  obtain ⟨a, ha, hbare⟩ := List.mem_map.mp hmem
  exact (hplain a ha).isAlternative hbare.symm

/-- Plain alternatives have no parentheses. -/
theorem map_bare_eq (hplain : ∀ a ∈ alternatives, IsPlain a) :
    alternatives.map (fun b => bare b.toList) = alternatives.map String.toList :=
  List.map_congr_left fun a ha => (hplain a ha).bare_eq

/-- A group counts for no quantifier, no more than a plain alternative outside of brackets. -/
theorem quantifiersWithin_iff (alternatives marked : List String) (a : String) :
    (QuantifiersWithin limits (us ++ [groupPhrase alternatives]) q ↔
      QuantifiersWithin limits (us ++ spelled a) q) ∧
    (QuantifiersWithin limits (us ++ [groupPhrase alternatives]) q ↔
      QuantifiersWithin limits (us ++ [groupPhrase marked]) q) := by
  have hgroup : ∀ as, quantifiedCount [groupPhrase as] = 0 := fun _ => rfl
  simp only [QuantifiersWithin, quantifiedCount_append, hgroup, quantifiedCount_spelled, and_self]

/-- An alternative is not longer than the body of its group. -/
theorem length_le_length_intercalate {a : List Char} {as : List (List Char)} (ha : a ∈ as) :
    a.length ≤ (['|'].intercalate as).length := by
  induction as with
  | nil => cases ha
  | cons b rest ih =>
    cases rest with
    | nil =>
      rw [List.intercalate_singleton, List.mem_singleton.mp ha]
    | cons b' rest =>
      rw [List.intercalate_cons_cons, List.length_append, List.length_append]
      rcases List.mem_cons.mp ha with rfl | ha
      · omega
      · have := ih ha
        omega

/-- An alternative is not longer than its group. -/
theorem length_le_length_bracketed {a : String} (ha : a ∈ alternatives) :
    a.length ≤ (bracketed alternatives).length := by
  have hbody := length_le_length_intercalate (List.mem_map_of_mem (f := String.toList) ha)
  have hall := congrArg List.length (toList_bracketed alternatives)
  rw [String.length_toList, Phrase.text, List.length_cons, List.length_append] at hall
  rw [String.length_toList] at hbody
  omega

section InContext

-- a text of phrases before the group, and a pattern behind it
variable (hus : ∀ u ∈ us, u.WellFormed) (hleft : textOf us = left.toList)
  (hright : parse settings.limits right = .ok q) (htwo : 2 ≤ alternatives.length)
  (hplain : ∀ a ∈ alternatives, IsPlain a)
  (hr : parse settings.limits (left ++ bracketed alternatives ++ right) = .ok r)

include hus hleft hright htwo hplain hr

/-- **With an alternative in place of the group there is a pattern**, with the classes of the
alternative where the group was. -/
theorem exists_parse_spelled {a : String} (ha : a ∈ alternatives) :
    ∃ s, parse settings.limits (left ++ a ++ right) = .ok s ∧
      s.shape = us.map Phrase.shape ++ (spelled a).map Phrase.shape ++ q.shape ∧
      r.atoms.length ≤ s.atoms.length := by
  have hgroup := wellFormed_groupPhrase htwo hplain (map_bare_eq hplain)
  obtain ⟨hshape, hwithin⟩ := shape_of_parse_around hus hleft hgroup
    (textOf_groupPhrase alternatives) hright hr
  have hlength : ((left ++ a ++ right).length : Int) ≤ settings.limits.maxLength := by
    have hall := (parse_eq_ok_iff.mp hr).1
    have hle := length_le_length_bracketed ha
    rw [String.length_toList] at hall
    simp only [String.length_append] at hall ⊢
    omega
  obtain ⟨s, hs⟩ := exists_parse_around hus hleft (hplain a ha).wellFormed_spelled
    (textOf_spelled a) hright hlength ((quantifiersWithin_iff alternatives [] a).1.mp hwithin)
  obtain ⟨hshape', -⟩ := shape_of_parse_around hus hleft (hplain a ha).wellFormed_spelled
    (textOf_spelled a) hright hs
  refine ⟨s, hs, hshape', ?_⟩
  -- an alternative has a class at least, in place of the one atom of the group
  have hpos : 0 < (spelled a).length := by
    rw [spelled, List.length_map, String.length_toList, Nat.pos_iff_ne_zero, ne_eq,
      String.length_eq_zero_iff]
    exact (hplain a ha).filled
  rw [← length_shape, ← length_shape, hshape, hshape']
  simp only [List.length_append, List.length_map, List.length_singleton]
  omega

/-- **Parentheses in the alternatives change nothing**: there is a pattern, and it gives every text
the same answer. -/
theorem exists_parse_marked {marked : List String}
    (hmarked : marked.map (fun b => bare b.toList) = alternatives.map String.toList)
    (hlength : ((left ++ bracketed marked ++ right).length : Int) ≤ settings.limits.maxLength) :
    ∃ r', parse settings.limits (left ++ bracketed marked ++ right) = .ok r' ∧
      ∀ text room, fitTo r' text room = fitTo r text room := by
  have hgroup := wellFormed_groupPhrase htwo hplain (map_bare_eq hplain)
  have hgroup' := wellFormed_groupPhrase htwo hplain hmarked
  obtain ⟨hshape, hwithin⟩ := shape_of_parse_around hus hleft hgroup
    (textOf_groupPhrase alternatives) hright hr
  obtain ⟨r', hr'⟩ := exists_parse_around hus hleft hgroup' (textOf_groupPhrase marked) hright
    hlength ((quantifiersWithin_iff alternatives marked "").2.mp hwithin)
  obtain ⟨hshape', -⟩ := shape_of_parse_around hus hleft hgroup' (textOf_groupPhrase marked)
    hright hr'
  have hsame : (groupPhrase marked).shape = (groupPhrase alternatives).shape := by
    have hbare := hmarked.trans (map_bare_eq hplain).symm
    have hshapes := congrArg
      (List.map fun a : List Char => a.map fun c => (⟨0, CharClass.ofToken c⟩ : Slot)) hbare
    rw [List.map_map, List.map_map] at hshapes
    rw [Phrase.shape, Phrase.shape, List.map_map, List.map_map]
    exact congrArg Piece.choice hshapes
  refine ⟨r', hr', fitTo_eq_of_shape hr' hr ?_⟩
  rw [hshape, hshape', List.map_singleton, List.map_singleton, hsame]

/-! ## Fitting -/

/-- A pattern with a group can be cut as one of the patterns with an alternative in place of the
group. -/
theorem cuttable_shape_iff {cs : List Char} :
    Cuttable r.shape cs ↔ ∃ a ∈ alternatives,
      Cuttable (us.map Phrase.shape ++ (spelled a).map Phrase.shape ++ q.shape) cs := by
  obtain ⟨hshape, -⟩ := shape_of_parse_around hus hleft
    (wellFormed_groupPhrase htwo hplain (map_bare_eq hplain)) (textOf_groupPhrase alternatives)
    hright hr
  rw [hshape]
  exact cuttable_around_group_iff hplain

/-- **Into the brackets.** What fits with an alternative in place of the group fits with the
group, which has no more atoms. -/
theorem fits_bracketed_of_spelled {a text : String} (ha : a ∈ alternatives)
    (hanswer : decision settings (Exchange.fits (left ++ a ++ right) text) = .ok true) :
    decision settings (Exchange.fits (left ++ bracketed alternatives ++ right) text) =
      .ok true := by
  obtain ⟨s, hs, hshape, hle⟩ := exists_parse_spelled hus hleft hright htwo hplain hr ha
  obtain ⟨hfew, hcut⟩ := (decision_fits_eq_true_iff hs).mp hanswer
  rw [hshape] at hcut
  have hrcut := (cuttable_shape_iff hus hleft hright htwo hplain hr).mpr ⟨a, ha, hcut⟩
  exact (decision_fits_eq_true_iff hr).mpr ⟨hle.trans hfew, hrcut⟩

/-- **Out of the brackets.** What fits with the group fits with one of the alternatives in its
place, or that one has more atoms than there is room for. -/
theorem exists_spelled_of_fits_bracketed {text : String}
    (hanswer : decision settings (Exchange.fits (left ++ bracketed alternatives ++ right) text) =
      .ok true) :
    ∃ a ∈ alternatives,
      decision settings (Exchange.fits (left ++ a ++ right) text) = .ok true ∨
      decision settings (Exchange.fits (left ++ a ++ right) text) = .error .tooDeep ∧
        ∃ s, parse settings.limits (left ++ a ++ right) = .ok s ∧
          settings.limits.room < s.atoms.length := by
  have hrcut := ((decision_fits_eq_true_iff hr).mp hanswer).2
  obtain ⟨a, ha, hcut⟩ := (cuttable_shape_iff hus hleft hright htwo hplain hr).mp hrcut
  obtain ⟨s, hs, hshape, -⟩ := exists_parse_spelled hus hleft hright htwo hplain hr ha
  rw [← hshape] at hcut
  rcases decision_fits_of_cuttable hs hcut with hanswer | ⟨hdeep, hmany⟩
  · exact ⟨a, ha, Or.inl hanswer⟩
  · exact ⟨a, ha, Or.inr ⟨hdeep, s, hs, hmany⟩⟩

end InContext

/-- **A group stands for each of its alternatives.** Every pattern with an alternative in place of
the group can be read. If an exchange answers of one of them that a text fits, it answers so of the
pattern with the group. If it answers so of the pattern with the group, it answers so of one of the
others or there is no room for the search, for that one has more atoms than there is room for. With
a limit of lengths that keeps within the room, the one is exactly the other. Parentheses in the
alternatives change no answer. -/
theorem fits_alternation
    (hleft : left = "" ∨ ∃ p, parse settings.limits left = .ok p)
    (hright : parse settings.limits right = .ok q) (htwo : 2 ≤ alternatives.length)
    (hplain : ∀ a ∈ alternatives, IsPlain a)
    (hr : parse settings.limits (left ++ bracketed alternatives ++ right) = .ok r) :
    (∀ a ∈ alternatives, ∃ s, parse settings.limits (left ++ a ++ right) = .ok s) ∧
      (∀ text,
        (∀ a ∈ alternatives,
          decision settings (Exchange.fits (left ++ a ++ right) text) = .ok true →
            decision settings (Exchange.fits (left ++ bracketed alternatives ++ right) text) =
              .ok true) ∧
        (decision settings (Exchange.fits (left ++ bracketed alternatives ++ right) text) =
            .ok true →
          ∃ a ∈ alternatives,
            decision settings (Exchange.fits (left ++ a ++ right) text) = .ok true ∨
            decision settings (Exchange.fits (left ++ a ++ right) text) = .error .tooDeep ∧
              ∃ s, parse settings.limits (left ++ a ++ right) = .ok s ∧
                settings.limits.room < s.atoms.length) ∧
        (settings.limits.maxLength ≤ settings.limits.room →
          (decision settings (Exchange.fits (left ++ bracketed alternatives ++ right) text) =
              .ok true ↔
            ∃ a ∈ alternatives,
              decision settings (Exchange.fits (left ++ a ++ right) text) = .ok true))) ∧
      ∀ marked : List String,
        marked.map (fun b => bare b.toList) = alternatives.map String.toList →
        ((left ++ bracketed marked ++ right).length : Int) ≤ settings.limits.maxLength →
        ∃ r', parse settings.limits (left ++ bracketed marked ++ right) = .ok r' ∧
          ∀ text room, fitTo r' text room = fitTo r text room := by
  obtain ⟨us, hus, htext⟩ := exists_phrases hleft
  refine ⟨fun a ha => ?_, fun text => ⟨fun a ha hanswer => ?_, fun hanswer => ?_, fun hroom =>
    ⟨fun hanswer => ?_, fun ⟨a, ha, hanswer⟩ => ?_⟩⟩, fun marked hmarked hlength => ?_⟩
  · obtain ⟨s, hs, -⟩ := exists_parse_spelled hus htext hright htwo hplain hr ha
    exact ⟨s, hs⟩
  · exact fits_bracketed_of_spelled hus htext hright htwo hplain hr ha hanswer
  · exact exists_spelled_of_fits_bracketed hus htext hright htwo hplain hr hanswer
  · obtain ⟨a, ha, hanswer | ⟨-, s, hs, hmany⟩⟩ :=
      exists_spelled_of_fits_bracketed hus htext hright htwo hplain hr hanswer
    · exact ⟨a, ha, hanswer⟩
    · -- a pattern within the limit has no more atoms than there is room for
      have hlength := length_atoms_le_of_parse hs
      omega
  · exact fits_bracketed_of_spelled hus htext hright htwo hplain hr ha hanswer
  · exact exists_parse_marked hus htext hright htwo hplain hr hmarked hlength

end Fitting

/-- A `Z` in front of the group, which is a digit there, and alternatives of which one begins the
other. -/
theorem fits_alternation_leadingZ :
    (∃ p, parse ({} : Settings).limits "Z" = .ok p) ∧
      (∃ q, parse ({} : Settings).limits "X" = .ok q) ∧
      (∀ a ∈ ["2", "2Z"], IsPlain a) ∧
      (∃ r, parse ({} : Settings).limits ("Z" ++ bracketed ["2", "2Z"] ++ "X") = .ok r) ∧
      decision {} (Exchange.fits ("Z" ++ bracketed ["2", "2Z"] ++ "X") "1235") = .ok true := by
  have hleft : ∃ p, parse ({} : Settings).limits "Z" = .ok p := ⟨_, rfl⟩
  have hright : parse ({} : Settings).limits "X" =
      .ok ⟨"X", [⟨0, .single .anyDigit none, some 0⟩], 1⟩ := rfl
  have hplain : ∀ a ∈ ["2", "2Z"], IsPlain a := by decide
  have hr : parse ({} : Settings).limits ("Z" ++ bracketed ["2", "2Z"] ++ "X") = .ok _ := rfl
  have hs : parse ({} : Settings).limits ("Z" ++ "2Z" ++ "X") =
      .ok ⟨"Z2ZX", [⟨0, .single .nonZero none, some 0⟩, ⟨1, .single (.literal '2') none, none⟩,
        ⟨2, .single .nonZero none, some 1⟩, ⟨3, .single .anyDigit none, some 2⟩], 3⟩ := rfl
  have hanswer : decision {} (Exchange.fits ("Z" ++ "2Z" ++ "X") "1235") = .ok true := by
    rw [decision_fits_of_few hs (by decide), fits, fit?_eq]
    rfl
  obtain ⟨-, hfits, -⟩ := fits_alternation (Or.inr hleft) hright (by decide) hplain hr
  exact ⟨hleft, ⟨_, hright⟩, hplain, ⟨_, hr⟩, (hfits "1235").1 "2Z" (by decide) hanswer⟩

/-- The digit one, repeated. -/
def ones (n : Nat) : String := String.ofList (List.replicate n '1')

/-- The digit one, repeated and then once more. -/
theorem ones_append_one (n : Nat) : "" ++ ones n ++ "1" = ones (n + 1) := by
  have hone : "1" = ones 1 := rfl
  rw [String.empty_append, hone, ones, ones, ones, ← String.ofList_append,
    List.replicate_append_replicate]

/-- The pattern `1`. -/
def onePattern : Pattern := ⟨"1", [⟨0, .single (.literal '1') none, none⟩], 0⟩

/-- The digit one repeated is plain, and so is the digit two. -/
theorem isPlain_of_mem_ones {n : Nat} (hn : n ≠ 0) : ∀ a ∈ [ones n, "2"], IsPlain a := by
  refine List.forall_mem_cons.mpr ⟨⟨fun hnil => hn ?_, fun c hc => ?_⟩,
    List.forall_mem_singleton.mpr (by decide)⟩
  · have hlength := congrArg String.length hnil
    rwa [ones, String.length_ofList, List.length_replicate] at hlength
  · rw [ones, String.toList_ofList] at hc
    rw [List.eq_of_mem_replicate hc]
    decide

/-- A group of the digit one repeated and the digit two, with the digit one behind it, is a pattern
of two atoms, and it fits the digit one repeated once more. -/
theorem exists_parse_ones {settings : Settings} {n : Nat} (hn : n ≠ 0)
    (hroom : 2 ≤ settings.limits.room)
    (hq : parse settings.limits "1" = .ok onePattern)
    (hlength : ((n + 5 : Nat) : Int) ≤ settings.limits.maxLength) :
    ∃ r, parse settings.limits ("" ++ bracketed [ones n, "2"] ++ "1") = .ok r ∧
      decision settings (Exchange.fits ("" ++ bracketed [ones n, "2"] ++ "1") (ones (n + 1))) =
        .ok true := by
  have hplain := isPlain_of_mem_ones hn
  have hgroup := wellFormed_groupPhrase le_rfl hplain (map_bare_eq hplain)
  have hleft : textOf [] = "".toList := rfl
  have hcount : ("" ++ bracketed [ones n, "2"] ++ "1").length = n + 5 := by
    have hbracketed := congrArg List.length (toList_bracketed [ones n, "2"])
    have hone : "1".length = 1 := rfl
    rw [String.length_toList] at hbracketed
    rw [String.length_append, String.length_append, hbracketed, hone]
    simp [Phrase.text, ones, List.intercalate_cons_cons]
  obtain ⟨r, hr⟩ := exists_parse_around (List.forall_mem_nil _) hleft hgroup
    (textOf_groupPhrase [ones n, "2"]) hq (by rw [hcount]; exact hlength) (Or.inl rfl)
  obtain ⟨hshape, -⟩ := shape_of_parse_around (List.forall_mem_nil _) hleft hgroup
    (textOf_groupPhrase [ones n, "2"]) hq hr
  obtain ⟨s, hs, hsshape, -⟩ := exists_parse_spelled (List.forall_mem_nil _) hleft hq le_rfl hplain
    hr List.mem_cons_self
  refine ⟨r, hr, (decision_fits_eq_true_iff hr).mpr ⟨?_, ?_⟩⟩
  · rw [← length_shape, hshape]
    exact hroom
  · have hcut : Cuttable s.shape (ones (n + 1)).toList := by
      have hones : parse settings.limits (ones (n + 1)) = .ok (ofPhrases (ones (n + 1))
          (List.replicate (n + 1) (.plain '1' none))) :=
        parse_replicate (by decide) (Nat.succ_ne_zero n) (by omega)
      rw [ones_append_one, hones] at hs
      rw [← Except.ok.inj hs, ones, String.toList_ofList]
      exact cuttable_shape_replicate (by decide) _ _
    rw [hsshape] at hcut
    rw [hshape]
    exact (cuttable_around_group_iff hplain).mpr ⟨ones n, List.mem_cons_self, hcut⟩

/-- Twelve hundred digits in brackets are one atom, but outside they are too many for the search. -/
theorem fits_alternation_tooDeep :
    ∃ (settings : Settings) (left right : String) (alternatives : List String) (q r : Pattern)
      (text : String),
      settings.rooms = {} ∧ left = "" ∧ parse settings.limits right = .ok q ∧
      2 ≤ alternatives.length ∧
      (∀ a ∈ alternatives, IsPlain a) ∧
      parse settings.limits (left ++ bracketed alternatives ++ right) = .ok r ∧
      decision settings (Exchange.fits (left ++ bracketed alternatives ++ right) text) =
        .ok true ∧
      ¬ ∃ a ∈ alternatives,
        decision settings (Exchange.fits (left ++ a ++ right) text) = .ok true := by
  let settings : Settings := { maxPatternLength := 10000 }
  have hq : parse settings.limits "1" = .ok onePattern := rfl
  obtain ⟨r, hr, hfits⟩ := exists_parse_ones (n := 1200) (by decide) (by decide) hq (by decide)
  refine ⟨settings, "", "1", [ones 1200, "2"], onePattern, r, ones 1201, rfl, rfl, hq, le_rfl,
    isPlain_of_mem_ones (by decide), hr, hfits, ?_⟩
  rintro ⟨a, ha, hanswer⟩
  rcases List.mem_cons.mp ha with rfl | ha
  · rw [ones_append_one, ones, decision_fits_replicate (by decide) (by decide) (by decide)
      (by decide)] at hanswer
    exact absurd hanswer (by decide)
  · -- the other alternative asks for a two in the first place
    rw [List.mem_singleton.mp ha] at hanswer
    have hs : parse settings.limits ("" ++ "2" ++ "1") =
        .ok ⟨"21", [⟨0, .single (.literal '2') none, none⟩,
          ⟨1, .single (.literal '1') none, none⟩], 0⟩ := rfl
    obtain ⟨-, hcut⟩ := (decision_fits_eq_true_iff hs).mp hanswer
    obtain ⟨u, v, huv, hu, -⟩ := cuttable_cons_iff.mp hcut
    obtain ⟨d, rfl, hd⟩ := admits_single_none_iff.mp hu
    rw [ones, String.toList_ofList, List.replicate_succ, List.singleton_append,
      List.cons.injEq] at huv
    rw [huv.1] at hd
    exact absurd (show '1' = '2' from hd) (by decide)

end CallRouting.Pattern

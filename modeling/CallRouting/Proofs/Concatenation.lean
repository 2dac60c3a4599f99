import CallRouting.Proofs.Assembly

/-!
# Patterns one after the other

Two patterns written one after the other make a pattern, if it keeps the limits, and a text fits it
exactly if the text falls into two parts that fit the two patterns. Neither the reader nor the
search takes notice of the seam: a quantifier belongs to the character before it, brackets close in
the pattern in which they open, and what the first pattern takes is given back until the second one
takes what is left.

The first pattern must not end in `Z`, which would take all that is left where it stands last.

* **Reading** (`parse_append`): the pattern that is read, and its shape.
* **Fitting** (`fits_append`), and where it fails for lack of room (`fits_append_tooDeep`).
-/

namespace CallRouting.Pattern

open Exchange (decision)

variable {limits : PatternLimits} {left right : String} {p q : Pattern}

/-! ## Reading -/

/-- **Two patterns one after the other make a pattern**, with the shapes of the two one after the
other. -/
theorem parse_append (hp : parse limits left = .ok p) (hq : parse limits right = .ok q)
    (hlast : left.toList.getLast? ≠ some 'Z')
    (hlength : ((left ++ right).length : Int) ≤ limits.maxLength)
    (hquantified : ((p.quantified + q.quantified : Nat) : Int) ≤ limits.maxQuantifiers) :
    ∃ r, parse limits (left ++ right) = .ok r ∧ r.shape = p.shape ++ q.shape := by
  have hrest : p.hasRest = false := by
    rw [Bool.eq_false_iff, ne_eq, hasRest_iff_getLast?_source hp]
    exact hlast
  obtain ⟨-, us, -, hus, hleft, rfl⟩ := parse_eq_ok_iff.mp hp
  obtain ⟨-, vs, hvs, hvs', hright, rfl⟩ := parse_eq_ok_iff.mp hq
  rw [quantified_ofPhrases, quantified_ofPhrases, ← quantifiedCount_append] at hquantified
  have hadm : Admissible limits.maxQuantifiers (us ++ vs) := by
    refine ⟨fun u hu => ?_, Or.inr hquantified⟩
    rcases List.mem_append.mp hu with hu | hu
    · exact hus.wellFormed u hu
    · exact hvs'.wellFormed u hu
  have htext : textOf (us ++ vs) = (left ++ right).toList := by
    rw [textOf_append, hleft, hright, String.toList_append]
  refine ⟨ofPhrases (left ++ right) (us ++ vs), parse_eq_ok_iff.mpr ⟨?_, us ++ vs, ?_, hadm, htext,
    rfl⟩, ?_⟩
  · rw [String.length_toList]
    exact hlength
  · exact List.append_ne_nil_of_right_ne_nil _ hvs
  · rw [shape_ofPhrases_append _ right us hvs, shape_ofPhrases_of_hasRest hrest]

/-! ## Fitting -/

/-- A text is cut at a seam into two texts. -/
theorem cuttable_append_toList_iff {ps qs : List Piece} {text : String} :
    Cuttable (ps ++ qs) text.toList ↔
      ∃ u v, u ++ v = text ∧ Cuttable ps u.toList ∧ Cuttable qs v.toList := by
  rw [cuttable_append_iff]
  constructor
  · rintro ⟨u, v, huv, hu, hv⟩
    refine ⟨String.ofList u, String.ofList v, ?_, ?_, ?_⟩
    · rw [← String.toList_inj, String.toList_append, String.toList_ofList, String.toList_ofList,
        huv]
    · rwa [String.toList_ofList]
    · rwa [String.toList_ofList]
  · rintro ⟨u, v, rfl, hu, hv⟩
    exact ⟨u.toList, v.toList, String.toList_append.symm, hu, hv⟩

/-- **Fitting two patterns one after the other.** Whenever an exchange answers, it answers that a
text fits exactly if the text falls into two parts that it answers fit the two patterns. It fails to
answer for lack of room only: if the two have more atoms together than there is room for. With a
limit of lengths that keeps within the room it always answers. -/
theorem fits_append {settings : Settings} (hp : parse settings.limits left = .ok p)
    (hq : parse settings.limits right = .ok q) (hlast : left.toList.getLast? ≠ some 'Z')
    (hlength : ((left ++ right).length : Int) ≤ settings.limits.maxLength)
    (hquantified : ((p.quantified + q.quantified : Nat) : Int) ≤ settings.limits.maxQuantifiers) :
    ∃ r, parse settings.limits (left ++ right) = .ok r ∧
      r.atoms.length = p.atoms.length + q.atoms.length ∧
      ∀ text,
        (r.fits text = true ↔ ∃ u v, u ++ v = text ∧ p.fits u = true ∧ q.fits v = true) ∧
        (∀ b, decision settings (Exchange.fits (left ++ right) text) = .ok b →
          (b = true ↔ ∃ u v, u ++ v = text ∧ decision settings (Exchange.fits left u) = .ok true ∧
            decision settings (Exchange.fits right v) = .ok true)) ∧
        (∀ e, decision settings (Exchange.fits (left ++ right) text) = .error e →
          e = .tooDeep ∧ settings.limits.room < r.atoms.length) ∧
        (settings.limits.maxLength ≤ settings.limits.room →
          ∃ b, decision settings (Exchange.fits (left ++ right) text) = .ok b) := by
  obtain ⟨r, hr, hshape⟩ := parse_append hp hq hlast hlength hquantified
  have hatoms : r.atoms.length = p.atoms.length + q.atoms.length := by
    rw [← length_shape, hshape, List.length_append, length_shape, length_shape]
  refine ⟨r, hr, hatoms, fun text => ?_⟩
  -- where the text can be cut, without regard to the room
  have hcut : Cuttable r.shape text.toList ↔ ∃ u v, u ++ v = text ∧
      Cuttable p.shape u.toList ∧ Cuttable q.shape v.toList := by
    rw [hshape]
    exact cuttable_append_toList_iff
  refine ⟨?_, fun b hb => ?_, fun e he => ?_, fun hroom => ?_⟩
  · simp only [fits_iff_cuttable hr, fits_iff_cuttable hp, fits_iff_cuttable hq, hcut]
  · have hanswer : b = true ↔
        r.atoms.length ≤ settings.limits.room ∧ Cuttable r.shape text.toList := by
      rw [← decision_fits_eq_true_iff hr, hb, Except.ok.injEq]
    simp only [hanswer, decision_fits_eq_true_iff hp, decision_fits_eq_true_iff hq]
    constructor
    · rintro ⟨hfew, hr⟩
      obtain ⟨u, v, huv, hu, hv⟩ := hcut.mp hr
      exact ⟨u, v, huv, ⟨by omega, hu⟩, by omega, hv⟩
    · rintro ⟨u, v, huv, ⟨-, hu⟩, -, hv⟩
      have hrcut := hcut.mpr ⟨u, v, huv, hu, hv⟩
      exact ⟨length_atoms_le_of_cuttable hr hb hrcut, hrcut⟩
  · obtain ⟨hdeep, hmany, -⟩ := (decision_fits_eq_error_iff hr).mp he
    exact ⟨hdeep, hmany⟩
  · have hfew := length_atoms_le_of_parse hr
    exact ⟨_, decision_fits_of_few hr (by omega) text⟩

/-- The pattern `X+[1|12]`. -/
def digitsThenGroup : Pattern :=
  ⟨"X+[1|12]",
    [⟨0, .single .anyDigit (some .oneOrMore), some 0⟩,
      ⟨2, .choice [[⟨3, .literal '1'⟩], [⟨5, .literal '1'⟩, ⟨6, .literal '2'⟩]], none⟩], 1⟩

/-- The pattern `2?Z`. -/
def optionalThenRest : Pattern :=
  ⟨"2?Z", [⟨0, .single (.literal '2') (some .optional), none⟩, ⟨2, .rest, none⟩], 0⟩

/-- A quantifier and alternatives of two lengths on one side of the seam, a quantifier and a rest on
the other. -/
theorem fits_append_seam :
    parse ({} : Settings).limits "X+[1|12]" = .ok digitsThenGroup ∧
      parse ({} : Settings).limits "2?Z" = .ok optionalThenRest ∧
      "X+[1|12]".toList.getLast? ≠ some 'Z' ∧
      ((("X+[1|12]" ++ "2?Z").length : Nat) : Int) ≤ ({} : Settings).limits.maxLength ∧
      ((digitsThenGroup.quantified + optionalThenRest.quantified : Nat) : Int) ≤
        ({} : Settings).limits.maxQuantifiers ∧
      ∃ r, parse ({} : Settings).limits ("X+[1|12]" ++ "2?Z") = .ok r ∧ r.fits "3125" = true := by
  have hp : parse ({} : Settings).limits "X+[1|12]" = .ok digitsThenGroup := rfl
  have hq : parse ({} : Settings).limits "2?Z" = .ok optionalThenRest := rfl
  obtain ⟨r, hr, -, hfits⟩ := fits_append hp hq (by decide) (by decide) (by decide)
  have hu : digitsThenGroup.fits "31" = true := by
    rw [fits, fit?_eq]
    rfl
  have hv : optionalThenRest.fits "25" = true := by
    rw [fits, fit?_eq]
    rfl
  exact ⟨hp, hq, by decide, by decide, by decide, r, hr,
    (hfits "3125").1.mpr ⟨"31", "25", rfl, hu, hv⟩⟩

/-! ## Where there is no room -/

/-- A character repeated can be cut into its occurrences. -/
theorem cuttable_shape_replicate {c : Char} (hliteral : CharClass.ofToken c = .literal c)
    (source : String) (n : Nat) :
    Cuttable (ofPhrases source (List.replicate n (.plain c none))).shape (List.replicate n c) := by
  have hpieces := pieces_replicate source n (fun h => by rw [hliteral] at h; cases h)
  rw [shape, cuttable_map_unplaced_iff, hpieces, hliteral]
  exact ⟨_, cuts_replicate n c⟩

/-- A character repeated fits itself exactly if there is room for it. -/
theorem decision_fits_replicate {settings : Settings} {c : Char} {n : Nat} (hc : c ∉ reserved)
    (hliteral : CharClass.ofToken c = .literal c) (hn : n ≠ 0)
    (hlength : (n : Int) ≤ settings.limits.maxLength) :
    decision settings (Exchange.fits (String.ofList (List.replicate n c))
      (String.ofList (List.replicate n c))) = .ok true ↔ n ≤ settings.limits.room := by
  rw [decision_fits_eq_true_iff (parse_replicate hc hn hlength), length_atoms_ofPhrases,
    List.length_replicate, String.toList_ofList]
  exact and_iff_left (cuttable_shape_replicate hliteral _ n)

/-- Six hundred digits fit themselves, but twice as many are too many for the search. -/
theorem fits_append_tooDeep :
    ∃ (settings : Settings) (left right : String) (p q : Pattern) (u v : String),
      settings.rooms = {} ∧ parse settings.limits left = .ok p ∧
      parse settings.limits right = .ok q ∧
      left.toList.getLast? ≠ some 'Z' ∧
      ((left ++ right).length : Int) ≤ settings.limits.maxLength ∧
      ((p.quantified + q.quantified : Nat) : Int) ≤ settings.limits.maxQuantifiers ∧
      decision settings (Exchange.fits left u) = .ok true ∧
      decision settings (Exchange.fits right v) = .ok true ∧
      decision settings (Exchange.fits (left ++ right) (u ++ v)) ≠ .ok true := by
  let settings : Settings := { maxPatternLength := 10000 }
  let ones (n : Nat) : String := String.ofList (List.replicate n '1')
  have happend : ones 600 ++ ones 600 = ones 1200 := by
    rw [← String.ofList_append, List.replicate_append_replicate]
  have hparse : parse settings.limits (ones 600) = .ok _ :=
    parse_replicate (by decide) (by decide) (by decide)
  have hfits : decision settings (Exchange.fits (ones 600) (ones 600)) = .ok true :=
    (decision_fits_replicate (by decide) (by decide) (by decide) (by decide)).mpr (by decide)
  refine ⟨settings, ones 600, ones 600, _, _, ones 600, ones 600, rfl, hparse, hparse, ?_, ?_, ?_,
    hfits, hfits, ?_⟩
  · rw [String.toList_ofList, List.getLast?_replicate]
    decide
  · rw [happend, String.length_ofList, List.length_replicate]
    decide
  · rw [quantified_ofPhrases, quantifiedCount, List.countP_replicate]
    decide
  · rw [happend, ne_eq, decision_fits_replicate (by decide) (by decide) (by decide) (by decide)]
    decide

end CallRouting.Pattern

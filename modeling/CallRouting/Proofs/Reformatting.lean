import CallRouting.Proofs.Concatenation
import CallRouting.Proofs.Extent
import CallRouting.Proofs.Mask

/-!
# Reformatting can be undone

A number that fits a mask is written anew with the mirror of another mask that has the same groups.
What comes of it fits the other mask, and the mirror of the first mask writes the number back.

* **One mask** (`filled_of_fit?`): a number that fits a mask is what its captures fill the fields
  with.
* **Two masks** (`exists_reformatted`): the fields of the other mask, filled with the same captures,
  make a text that fits it with the same captures.
* **Questions** (`reformatting_undone`), and where there is no room for the way back
  (`reformatting_undone_tooDeep`).
-/

namespace CallRouting.Pattern

open Exchange (decision Neutral Session fitTo)

variable {limits : PatternLimits} {source source' text : String} {p p' : Pattern}
  {fields fields' : List Field} {f : Fit}

/-! ## One mask -/

/-- **A number that fits a mask is what its captures fill the fields with.** -/
theorem filled_of_fit? (h : parse limits source = .ok p) (hfields : Fielded 0 p.atoms fields)
    (hcount : p.groupCount = (classesOf fields).length) (hf : p.fit? text = some f) :
    List.Forall₂ Spells (classesOf fields) f.groups ∧
      text.toList = fill fields f.groups f.rest := by
  have hlast := restLast_of_parse h
  obtain ⟨hadm, -⟩ := segments_of_fit? hlast hf
  have hgroups : f.groups = (groupsFrom 0 fields).map (capture p.atoms f.segments) := by
    rw [groupsFrom, ← hcount, ← List.range_eq_range']
    exact groups_of_fit? hlast hf
  obtain ⟨hspells, hfill⟩ := hfields.captured hadm
  rw [join_segments_of_fit? hlast hf] at hfill
  rw [hgroups, rest_eq_of_fit? h hf]
  exact ⟨hspells, hfill⟩

/-! ## Two masks -/

/-- **The same captures in the fields of another mask** make a text that fits the other mask with
the same captures; the mirrors write the one text and the other. -/
theorem exists_reformatted (h : parse limits source = .ok p) (h' : parse limits source' = .ok p')
    (hmask : p.IsMask) (hmask' : p'.IsMask) (hletters : p.groupLetters = p'.groupLetters)
    (hrest : p.hasRest = p'.hasRest) (hf : p.fit? text = some f) :
    ∃ y f', p'.fit? y = some f' ∧ ∀ strict,
      render strict f.groups f.rest (some p.hasRest) p.mirror = .ok text ∧
      render strict f.groups f.rest (some p.hasRest) p'.mirror = .ok y ∧
      render strict f'.groups f'.rest (some p'.hasRest) p.mirror = .ok text := by
  obtain ⟨fields, hfields, hcount⟩ := hmask.exists_fielded h
  obtain ⟨fields', hfields', hcount'⟩ := hmask'.exists_fielded h'
  have hclasses := classesOf_eq hfields hcount hfields' hcount' hletters
  have hlast := restLast_of_parse h
  have hlast' := restLast_of_parse h'
  obtain ⟨hspells, hfill⟩ := filled_of_fit? h hfields hcount hf
  have hspells' : List.Forall₂ Spells (classesOf fields') f.groups := hclasses ▸ hspells
  -- the text in the other mask, and how it is searched
  have hcut := hfields'.cuttable_fill hspells' f.rest
  obtain ⟨y, hy⟩ : ∃ y : String, y.toList = fill fields' f.groups f.rest :=
    ⟨String.ofList _, String.toList_ofList⟩
  have hfits : (p'.fit? y).isSome = true := by
    have hiff := fits_iff hlast' y
    rw [hy] at hiff
    exact hiff.mpr hcut
  obtain ⟨f', hf'⟩ := Option.isSome_iff_exists.mp hfits
  obtain ⟨hspells'', hfill'⟩ := filled_of_fit? h' hfields' hcount' hf'
  obtain ⟨hgroups, hsame⟩ := hfields'.fill_injective hspells' hspells'' (hy.symm.trans hfill')
  have hrests : f'.rest = f.rest := by
    have hsome := (rest_of_fit? h hf).1
    have hsome' := (rest_of_fit? h' hf').1
    rw [hrest] at hsome
    cases hhas : p'.hasRest with
    | false =>
      rw [hhas, Option.isSome_eq_false_iff, Option.isNone_iff_eq_none] at hsome hsome'
      rw [hsome, hsome']
    | true =>
      have hmem := hfields'.rest_mem_iff.mpr ((hasRest_iff_exists hlast').mp hhas)
      rw [hhas] at hsome hsome'
      obtain ⟨r, hr⟩ := Option.isSome_iff_exists.mp hsome
      obtain ⟨r', hr'⟩ := Option.isSome_iff_exists.mp hsome'
      have heq := hsame hmem
      rw [hr, hr', Option.getD_some, Option.getD_some] at heq
      rw [hr, hr', heq]
  refine ⟨y, f', hf', fun strict => ⟨?_, ?_, ?_⟩⟩
  · rw [render_mirror hfields hlast hspells, ← hfill, String.ofList_toList]
  · rw [hrest, render_mirror hfields' hlast' hspells', ← hy, String.ofList_toList]
  · rw [← hgroups, hrests, ← hrest, render_mirror hfields hlast hspells, ← hfill,
      String.ofList_toList]

/-! ## Questions -/

/-- **The way to another mask and back.** With few atoms in the other mask both ways are gone; with
too many, there is no room for the way back. -/
theorem decision_reformatted {settings : Settings} (h : parse settings.limits source = .ok p)
    (h' : parse settings.limits source' = .ok p') (hmask : p.IsMask) (hmask' : p'.IsMask)
    (hletters : p.groupLetters = p'.groupLetters) (hrest : p.hasRest = p'.hasRest)
    (hx : decision settings (Exchange.fits source text) = .ok true) :
    ∃ y, p'.fits y = true ∧
      ∀ (strict : Bool) (settings' : Settings), settings'.limits = settings.limits →
        decision settings' (Exchange.transform strict text source p.mirror) = .ok text ∧
        decision settings' (Exchange.transform strict text source p'.mirror) = .ok y ∧
        (p'.atoms.length ≤ settings.limits.room →
          decision settings' (Exchange.fits source' y) = .ok true ∧
            decision settings' (Exchange.transform strict y source' p.mirror) = .ok text) ∧
        (settings.limits.room < p'.atoms.length →
          decision settings' (Exchange.fits source' y) = .error .tooDeep ∧
            decision settings' (Exchange.transform strict y source' p.mirror) =
              .error .tooDeep) := by
  obtain ⟨hfew, f, hf⟩ := exists_fit?_of_decision h hx
  obtain ⟨y, f', hf', hrender⟩ := exists_reformatted h h' hmask hmask' hletters hrest hf
  have hfits : p'.fits y = true := by rw [fits, hf']; rfl
  refine ⟨y, hfits, fun strict settings' hlimits => ?_⟩
  rw [← hlimits] at h h' hfew ⊢
  obtain ⟨hsame, hother, hback⟩ := hrender strict
  refine ⟨?_, ?_, fun hfew' => ⟨?_, ?_⟩, fun hmany => ?_⟩
  · rw [decision_transform_of_fit? h hfew hf, hsame]
    rfl
  · rw [decision_transform_of_fit? h hfew hf, hother]
    rfl
  · rw [decision_fits_of_few h' hfew', hfits]
  · rw [decision_transform_of_fit? h' hfew' hf', hback]
    rfl
  · obtain ⟨hdeep, hdeep'⟩ := decision_of_tooDeep h' hmany hf'
    exact ⟨hdeep, hdeep' strict p.mirror⟩

/-- **Reformatting can be undone.** Two masks have the same letters in their groups, and both or
neither end in what is left. A number that fits the first is written anew with the mirror of the
second, under the strict rule or not; what comes of it fits the second, and the mirror of the first
writes the number back. The mirror of its own mask changes no number. So it is at every moment of a
session that keeps the limits of patterns, but for lack of room: if the second mask has more atoms
than there is room for, its search fails on what was written, and only there. With a limit of
lengths that keeps within the room that does not happen. -/
theorem reformatting_undone {settings : Settings} (h : parse settings.limits source = .ok p)
    (h' : parse settings.limits source' = .ok p') (hmask : p.IsMask) (hmask' : p'.IsMask)
    (hletters : p.groupLetters = p'.groupLetters) (hrest : p.hasRest = p'.hasRest) {x : String}
    (hx : (Exchange.fits source x (Exchange.start settings)).1 = .ok true) :
    (∃ y, p'.fits y = true ∧
      ∀ (strict : Bool) (e : Exchange), Session Settings.limits (Exchange.start settings) e →
        (Exchange.transform strict x source p.mirror e).1 = .ok x ∧
        (Exchange.transform strict x source p'.mirror e).1 = .ok y ∧
        (p'.atoms.length ≤ settings.limits.room →
          (Exchange.fits source' y e).1 = .ok true ∧
            (Exchange.transform strict y source' p.mirror e).1 = .ok x) ∧
        (settings.limits.room < p'.atoms.length →
          (Exchange.fits source' y e).1 = .error .tooDeep ∧
            (Exchange.transform strict y source' p.mirror e).1 = .error .tooDeep)) ∧
      (settings.limits.maxLength ≤ settings.limits.room →
        p'.atoms.length ≤ settings.limits.room) := by
  rw [Neutral.answer _ (Exchange.faithful_start settings)] at hx
  obtain ⟨y, hfits, hall⟩ := decision_reformatted h h' hmask hmask' hletters hrest hx
  refine ⟨⟨y, hfits, fun strict e he => ?_⟩, fun hroom => ?_⟩
  · have hef : e.Faithful := he.faithful (fun _ _ h => h) (Exchange.faithful_start settings)
    simp only [Neutral.answer e hef]
    exact hall strict e.settings he.kept_eq
  · have hlength := length_atoms_le_of_parse h'
    omega

/-- The mask `Nxx-XXXXZ`. -/
def plainMask : Pattern :=
  ⟨"Nxx-XXXXZ",
    [⟨0, .single .restricted none, some 0⟩, ⟨1, .single .nextDigit none, some 0⟩,
      ⟨2, .single .nextDigit none, some 0⟩, ⟨3, .single (.literal '-') none, none⟩,
      ⟨4, .single .anyDigit none, some 1⟩, ⟨5, .single .anyDigit none, some 1⟩,
      ⟨6, .single .anyDigit none, some 1⟩, ⟨7, .single .anyDigit none, some 1⟩,
      ⟨8, .rest, none⟩], 2⟩

/-- The mask `1(Nxx)2XXXXZ`, with characters of its own that are digits. -/
def fullMask : Pattern :=
  ⟨"1(Nxx)2XXXXZ",
    [⟨0, .single (.literal '1') none, none⟩, ⟨1, .single (.literal '(') none, none⟩,
      ⟨2, .single .restricted none, some 0⟩, ⟨3, .single .nextDigit none, some 0⟩,
      ⟨4, .single .nextDigit none, some 0⟩, ⟨5, .single (.literal ')') none, none⟩,
      ⟨6, .single (.literal '2') none, none⟩,
      ⟨7, .single .anyDigit none, some 1⟩, ⟨8, .single .anyDigit none, some 1⟩,
      ⟨9, .single .anyDigit none, some 1⟩, ⟨10, .single .anyDigit none, some 1⟩,
      ⟨11, .rest, none⟩], 2⟩

/-- From one mask to the other and back. -/
theorem reformatting_undone_digits :
    ∃ y, (Exchange.transform true "555-0123x9" "Nxx-XXXXZ" "1($$$)2$$$$Z"
        (Exchange.start {})).1 = .ok y ∧
      (Exchange.transform true y "1(Nxx)2XXXXZ" "$$$-$$$$Z" (Exchange.start {})).1 =
        .ok "555-0123x9" := by
  have h : parse ({} : Settings).limits "Nxx-XXXXZ" = .ok plainMask := rfl
  have h' : parse ({} : Settings).limits "1(Nxx)2XXXXZ" = .ok fullMask := rfl
  have hfit : (Exchange.fits "Nxx-XXXXZ" "555-0123x9" (Exchange.start {})).1 = .ok true := by
    rw [Neutral.answer _ (Exchange.faithful_start _)]
    change decision {} _ = _
    rw [decision_fits_of_few h (by decide), fits, fit?_eq]
    rfl
  obtain ⟨⟨y, -, hall⟩, hroom⟩ := reformatting_undone h h' (by decide) (by decide) (by decide)
    (by decide) hfit
  obtain ⟨-, hother, hback, -⟩ := hall true _ .refl
  exact ⟨y, hother, (hback (hroom (by decide))).2⟩

/-! ## Where there is no room -/

/-- A digit repeated is a mask without groups. -/
theorem isMask_replicate {n : Nat} (hn : n ≠ 0) (hlength : (n : Int) ≤ limits.maxLength) :
    ∃ q, parse limits (String.ofList (List.replicate n '1')) = .ok q ∧ q.IsMask ∧
      q.groupLetters = [] ∧ q.hasRest = false ∧ q.atoms.length = n := by
  have hparse := parse_replicate (c := '1') (by decide) hn hlength
  have hlong := length_atoms_ofPhrases (String.ofList (List.replicate n '1'))
    (List.replicate n (.plain '1' none))
  have hpieces := pieces_replicate (c := '1') (String.ofList (List.replicate n '1')) n (by decide)
  generalize ofPhrases _ _ = q at hparse hlong hpieces
  have hpiece : ∀ a ∈ q.atoms, a.piece = .single (.literal '1') none := fun a ha =>
    List.eq_of_mem_replicate (hpieces ▸ List.mem_map_of_mem ha : a.piece ∈ List.replicate n _)
  have hgroup : ∀ a ∈ q.atoms, a.group = none := by
    intro a ha
    have hcap := group_isSome_iff_of_parse hparse ha
    rw [hpiece a ha] at hcap
    exact Option.not_isSome_iff_eq_none.mp (by rw [hcap]; decide)
  have hcount : q.groupCount = 0 := (grouped_of_parse hparse).eq_of_forall_none hgroup
  refine ⟨q, hparse, ⟨fun a ha => ?_, ?_⟩, ?_, ?_, ?_⟩
  · rw [hpiece a ha]
    decide
  · exact (List.pairwise_of_forall_mem_list fun a ha b _ => Or.inl (hgroup a ha)).isChain
  · rw [groupLetters, hcount]
    rfl
  · rw [← Bool.not_eq_true, hasRest_iff_exists (restLast_of_parse hparse)]
    rintro ⟨a, ha, hrest⟩
    rw [hpiece a ha] at hrest
    cases hrest
  · rw [hlong, List.length_replicate]

/-- A number of one digit is written anew as three thousand, and there is no room for the way
back. -/
theorem reformatting_undone_tooDeep :
    ∃ (settings : Settings) (source source' : String) (p p' : Pattern) (x y : String),
      settings.rooms = {} ∧ parse settings.limits source = .ok p ∧
      parse settings.limits source' = .ok p' ∧
      p.IsMask ∧ p'.IsMask ∧ p.groupLetters = p'.groupLetters ∧ p.hasRest = p'.hasRest ∧
      decision settings (Exchange.fits source x) = .ok true ∧
      decision settings (Exchange.transform true x source p'.mirror) = .ok y ∧
      decision settings (Exchange.fits source' y) ≠ .ok true ∧
      decision settings (Exchange.transform true y source' p.mirror) ≠ .ok x := by
  let settings : Settings := { maxPatternLength := 10000 }
  have hlimit : ((1 : Nat) : Int) ≤ settings.limits.maxLength := by decide
  have hlimit' : ((3000 : Nat) : Int) ≤ settings.limits.maxLength := by decide
  obtain ⟨p, h, hmask, hletters, hrest, -⟩ := isMask_replicate (by decide) hlimit
  obtain ⟨p', h', hmask', hletters', hrest', hlength'⟩ := isMask_replicate (by decide) hlimit'
  have hx : decision settings (Exchange.fits (String.ofList (List.replicate 1 '1'))
      (String.ofList (List.replicate 1 '1'))) = .ok true :=
    (decision_fits_replicate (by decide) (by decide) (by decide) (by decide)).mpr (by decide)
  obtain ⟨y, -, hall⟩ := decision_reformatted h h' hmask hmask' (hletters.trans hletters'.symm)
    (hrest.trans hrest'.symm) hx
  obtain ⟨-, hother, -, hdeep⟩ := hall true settings rfl
  obtain ⟨hfits, hback⟩ := hdeep (by rw [hlength']; decide)
  refine ⟨settings, _, _, p, p', _, y, rfl, h, h', hmask, hmask', hletters.trans hletters'.symm,
    hrest.trans hrest'.symm, hx, hother, ?_, ?_⟩
  · rw [hfits]
    exact nofun
  · rw [hback]
    exact nofun

end CallRouting.Pattern

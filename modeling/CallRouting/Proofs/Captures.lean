import CallRouting.DialPlan.Rule
import CallRouting.Proofs.Fitting
import CallRouting.Proofs.Grouping

/-!
# Templates that were checked fit the captures

A template is checked against its pattern before any number is known, and rendered with the captures
of a number later on. The check counts the runs and compares their lengths with those of the groups
whose length is fixed.

* **What a group holds** (`length_capture_of_fit?`): a group without quantifiers holds as many
  characters as it has atoms, whatever the number.
* **What the check promises** (`checkRuns_eq_ok_iff`): there are no more runs than groups, and under
  the strict rule every run is as long as its group if that has a fixed length.
* **What can go wrong** (`write_error_cases`): a run without a group, or one that differs in length
  from its group.
* **Together** (`render_error_of_checkRuns`): a template that was checked fails only under the
  strict rule, at a group that contains a quantified atom.
-/

namespace CallRouting

namespace Pattern

/-! ## Groups -/

/-- No atom of a layout belongs to a group. -/
theorem group_of_mem_layout {n : Nat} {us : List Phrase} {a : Atom} (h : a ∈ layout n us) :
    a.group = none := by
  induction us generalizing n with
  | nil => cases h
  | cons u us ih =>
    rcases List.mem_cons.mp h with rfl | h
    · rfl
    · exact ih h

/-- Before they are numbered, no atom belongs to a group. -/
theorem group_of_mem_atomsOf {us : List Phrase} {a : Atom} (h : a ∈ atomsOf us) :
    a.group = none := by
  rw [atomsOf, List.mem_reverse] at h
  rcases markRest_cases (layout 0 us).reverse with heq | ⟨position, group, before, heq, hmark⟩
  · rw [heq, List.mem_reverse] at h
    exact group_of_mem_layout h
  · have hall : ∀ b ∈ ⟨position, .single .nonZero none, group⟩ :: before, b.group = none := by
      intro b hb
      rw [← heq, List.mem_reverse] at hb
      exact group_of_mem_layout hb
    rw [hmark] at h
    rcases List.mem_cons.mp h with rfl | h
    · exact hall ⟨position, .single .nonZero none, group⟩ List.mem_cons_self
    · exact hall a (List.mem_cons_of_mem _ h)

/-- Numbering puts the atoms that capture into groups, and no others. -/
theorem group_isSome_iff_of_mem_numberGroups {previous : Option (CharClass × Nat)} {count : Nat}
    {atoms : List Atom} (hnone : ∀ a ∈ atoms, a.group = none) {a : Atom}
    (h : a ∈ (numberGroups previous count atoms).1) :
    a.group.isSome = a.piece.capturing?.isSome := by
  induction atoms generalizing previous count with
  | nil => cases h
  | cons b rest ih =>
    obtain ⟨hb, hrest⟩ := List.forall_mem_cons.mp hnone
    rw [numberGroups] at h
    cases hcap : b.piece.capturing? with
    | none =>
      simp only [hcap] at h
      rcases List.mem_cons.mp h with rfl | h
      · rw [hb, hcap]
        rfl
      · exact ih hrest h
    | some cls =>
      simp only [hcap] at h
      rcases List.mem_cons.mp h with rfl | h
      · simp [hcap]
      · exact ih hrest h

variable {limits : PatternLimits} {source text : String} {p : Pattern}

/-- In a pattern that was read, exactly the digit classes belong to a group. -/
theorem group_isSome_iff_of_parse (h : parse limits source = .ok p) {a : Atom} (ha : a ∈ p.atoms) :
    a.group.isSome = a.piece.capturing?.isSome := by
  obtain ⟨-, us, -, -, -, rfl⟩ := parse_eq_ok_iff.mp h
  exact group_isSome_iff_of_mem_numberGroups (fun b hb => group_of_mem_atomsOf hb) ha

/-- What captures is a class. -/
theorem exists_single_of_capturing? {piece : Piece} (h : piece.capturing?.isSome = true) :
    ∃ cls q, piece = .single cls q := by
  cases piece with
  | single cls q => exact ⟨cls, q, rfl⟩
  | choice | rest => cases h

/-- A group has a fixed length exactly if none of its atoms has a quantifier. -/
theorem groupLength_eq_some_iff {group k : Nat} :
    p.groupLength group = some k ↔
      (∀ a ∈ p.members group, a.piece.quantifier? = none) ∧ (p.members group).length = k := by
  have hall : (p.members group).all (·.piece.quantifier? = none) = true ↔
      ∀ a ∈ p.members group, a.piece.quantifier? = none := by
    simp
  change (if (p.members group).all (·.piece.quantifier? = none) = true then
    some (p.members group).length else none) = some k ↔ _
  by_cases h : (p.members group).all (·.piece.quantifier? = none) = true
  · rw [if_pos h, Option.some.injEq]
    exact ⟨fun hk => ⟨hall.mp h, hk⟩, fun hk => hk.2⟩
  · rw [if_neg h]
    constructor
    · intro hk
      cases hk
    · rintro ⟨hk, -⟩
      exact absurd (hall.mpr hk) h

/-- A group without a fixed length has an atom with a quantifier. -/
theorem exists_quantified_of_groupLength_eq_none {group : Nat} (h : p.groupLength group = none) :
    ∃ a ∈ p.members group, a.piece.quantifier? ≠ none := by
  by_contra hno
  push Not at hno
  have hsome := groupLength_eq_some_iff.mpr ⟨hno, rfl⟩
  rw [h] at hsome
  cases hsome

/-! ## Lengths of captures -/

/-- A group whose atoms take one character each holds as many characters as it has atoms. -/
theorem length_capture {atoms : List Atom} {segments : List String} {group : Nat}
    (h : List.Forall₂ (fun a s => a.group = some group → s.length = 1) atoms segments) :
    (capture atoms segments group).length = (atoms.filter (·.group = some group)).length := by
  rw [capture, String.length_join]
  induction h with
  | nil => rfl
  | @cons a s atoms segments hone _ ih =>
    by_cases ha : a.group = some group
    · simp [ha, hone ha] at ih ⊢
      omega
    · simpa [ha] using ih

/-- The segments of a fit are what its atoms admit, and its groups are those of the segments. -/
theorem segments_of_fit? (h : RestLast p.pieces) {f : Fit} (hf : p.fit? text = some f) :
    List.Forall₂ (fun a s => a.piece.Admits s.toList) p.atoms f.segments ∧
      f = p.fitOf f.segments := by
  obtain ⟨shares, hfirst, rfl⟩ := (fit?_eq_some_iff h).mp hf
  refine ⟨?_, rfl⟩
  change List.Forall₂ _ p.atoms (shares.map fun share => String.ofList share.taken)
  rw [List.forall₂_map_right_iff]
  refine (List.forall₂_map_left_iff.mp hfirst.divides.chosen).imp fun a share hch => ?_
  rw [String.toList_ofList]
  exact Piece.admits_iff.mpr ⟨_, hch⟩

/-- The groups of a fit hold the segments of their atoms. -/
theorem groups_of_fit? (h : RestLast p.pieces) {f : Fit} (hf : p.fit? text = some f) :
    f.groups = (List.range p.groupCount).map (capture p.atoms f.segments) := by
  obtain ⟨-, hfit⟩ := segments_of_fit? h hf
  exact (congrArg Fit.groups hfit).trans (groups_captured p f.segments)

/-- The rest of a fit is what the last atom took, if that takes all that is left. -/
theorem rest_eq_of_fit? (h : parse limits source = .ok p) {f : Fit} (hf : p.fit? text = some f) :
    f.rest = restCapture p.atoms f.segments := by
  have hlast := restLast_of_parse h
  obtain ⟨-, hfit⟩ := segments_of_fit? hlast hf
  have hgroup : ∀ a ∈ p.atoms, a.piece = .rest → a.group = none := by
    intro a ha hrest
    have hsome := group_isSome_iff_of_parse h ha
    rw [hrest] at hsome
    exact Option.not_isSome_iff_eq_none.mp (by simp [hsome, Piece.capturing?])
  exact (congrArg Fit.rest hfit).trans (rest_captured hlast hgroup f.segments)

/-- A fit has a capture for each group. -/
theorem length_groups_of_fit? (h : RestLast p.pieces) {f : Fit} (hf : p.fit? text = some f) :
    f.groups.length = p.groupCount := by
  rw [groups_of_fit? h hf]
  simp

/-- **What a group without quantifiers holds has the length of the group**, whatever the number. -/
theorem length_capture_of_fit? (h : parse limits source = .ok p) {f : Fit}
    (hf : p.fit? text = some f) {group k : Nat} (hk : p.groupLength group = some k) {s : String}
    (hs : f.groups[group]? = some s) : s.length = k := by
  obtain ⟨hadm, -⟩ := segments_of_fit? (restLast_of_parse h) hf
  have hcapture : s = capture p.atoms f.segments group := by
    rw [groups_of_fit? (restLast_of_parse h) hf, List.getElem?_map, Option.map_eq_some_iff] at hs
    obtain ⟨g, hg, rfl⟩ := hs
    rw [(List.getElem?_eq_some_iff.mp hg).2.symm, List.getElem_range]
  obtain ⟨hall, hlen⟩ := groupLength_eq_some_iff.mp hk
  rw [hcapture, ← hlen, members]
  apply length_capture
  rw [List.forall₂_iff_get] at hadm ⊢
  refine ⟨hadm.1, fun i hi hi' hgroup => ?_⟩
  have hmem : p.atoms[i] ∈ p.atoms := List.getElem_mem hi
  have hcap := group_isSome_iff_of_parse h hmem
  rw [show p.atoms[i].group = some group from hgroup] at hcap
  obtain ⟨cls, q, hpiece⟩ := exists_single_of_capturing? hcap.symm
  have hq : p.atoms[i].piece.quantifier? = none :=
    hall _ (List.mem_filter.mpr ⟨hmem, by simpa using hgroup⟩)
  have hone : Piece.Admits p.atoms[i].piece f.segments[i].toList := hadm.2 i hi hi'
  rw [hpiece] at hone hq
  obtain rfl : q = none := hq
  have hlow : 1 ≤ f.segments[i].toList.length := hone.1.1
  have hhigh : f.segments[i].toList.length ≤ 1 := hone.1.2 1 rfl
  rw [String.length_toList] at hlow hhigh
  exact Nat.le_antisymm hhigh hlow

end Pattern

/-! ## Templates -/

/-- Changing an answer does not change a failure. -/
theorem eq_error_of_map_eq_error {ε α β : Type} {g : α → β} {x : Except ε α} {e : ε}
    (h : g <$> x = .error e) : x = .error e := by
  cases x with
  | error e' =>
    cases h
    rfl
  | ok a => cases h

/-- What can go wrong when parts are written out: a run has no group, or differs in length from its
group under the strict rule. -/
theorem Filling.write_error_cases {f : Filling} {index : Nat} {groups : List String}
    {parts : List TemplatePart} {e : TemplateError} (h : f.write index groups parts = .error e) :
    groups.length < (parts.filterMap TemplatePart.runLength?).length ∨
      f.strict = true ∧ ∃ (i run : Nat) (group : String),
        (parts.filterMap TemplatePart.runLength?)[i]? = some run ∧ groups[i]? = some group ∧
          group.length ≠ run ∧ e = .length (index + i : Nat) run group := by
  induction parts generalizing index groups with
  | nil => cases h
  | cons part parts ih =>
    cases part with
    | run n =>
      cases groups with
      | nil => exact Or.inl (by simp [TemplatePart.runLength?])
      | cons group groups =>
        rw [write] at h
        by_cases hmis : (f.strict && decide (group.length ≠ n)) = true
        · rw [if_pos hmis] at h
          cases h
          rw [Bool.and_eq_true, decide_eq_true_eq] at hmis
          exact Or.inr ⟨hmis.1, 0, n, group, rfl, rfl, hmis.2, rfl⟩
        · rw [if_neg hmis] at h
          rcases ih (eq_error_of_map_eq_error h) with
            hmany | ⟨hstrict, i, run, g, hrun, hg, hne, rfl⟩
          · exact Or.inl (by simpa [TemplatePart.runLength?] using hmany)
          · refine Or.inr ⟨hstrict, i + 1, run, g, ?_, ?_, hne, ?_⟩
            · simpa [TemplatePart.runLength?] using hrun
            · simpa using hg
            · rw [Nat.add_right_comm, Nat.add_assoc]
    | restMark => exact ih (eq_error_of_map_eq_error h)
    | plain c => exact ih (eq_error_of_map_eq_error h)

/-- The first misfit is none exactly if every run is as long as its group, where that has a fixed
length. -/
theorem misfit?_eq_none_iff {index : Nat} {runs : List Nat} {lengths : List (Option Nat)} :
    misfit? index runs lengths = none ↔
      ∀ i run length : Nat, runs[i]? = some run → lengths[i]? = some (some length) →
        run = length := by
  induction runs generalizing index lengths with
  | nil => simp [misfit?]
  | cons run runs ih =>
    cases lengths with
    | nil => simp [misfit?]
    | cons length lengths =>
      have hshift : (∀ i r k : Nat, (run :: runs)[i]? = some r →
          (length :: lengths)[i]? = some (some k) → r = k) ↔
          (∀ k : Nat, length = some k → run = k) ∧
            ∀ i r k : Nat, runs[i]? = some r → lengths[i]? = some (some k) → r = k := by
        constructor
        · intro h
          refine ⟨fun k hk => h 0 run k rfl (by rw [hk]; rfl), fun i r k hr hk => ?_⟩
          exact h (i + 1) r k (by simpa using hr) (by simpa using hk)
        · rintro ⟨hhead, htail⟩ i r k hr hk
          cases i with
          | zero =>
            obtain rfl : run = r := by simpa using hr
            exact hhead k (by simpa using hk)
          | succ i => exact htail i r k (by simpa using hr) (by simpa using hk)
      rw [hshift]
      cases length with
      | none =>
        rw [misfit?, ih]
        simp
      | some k =>
        rw [misfit?]
        by_cases hk : run = k
        · rw [if_pos hk, ih]
          simp [hk]
        · rw [if_neg hk]
          simp [hk]

/-- **What the check of a template promises.** -/
theorem checkRuns_eq_ok_iff {strict : Bool} {p : Pattern} {template : String} :
    checkRuns strict p template = .ok () ↔
      (placeholderRuns template).length ≤ p.groupCount ∧
        (strict = true → ∀ i run length : Nat, (placeholderRuns template)[i]? = some run →
          p.groupLengths[i]? = some (some length) → run = length) := by
  unfold checkRuns
  by_cases hmany : p.groupCount < (placeholderRuns template).length
  · simp only [hmany, if_true, reduceCtorEq, false_iff, not_and]
    intro hle
    omega
  · simp only [hmany, if_false]
    have hfits : misfit? 0 (placeholderRuns template) p.groupLengths = none ↔ _ :=
      misfit?_eq_none_iff
    rw [and_iff_right (Nat.not_lt.mp hmany), ← hfits]
    cases strict with
    | false => simp
    | true =>
      cases hmis : misfit? 0 (placeholderRuns template) p.groupLengths with
      | none => simp
      | some m => simp

/-- **A template that was checked fails at a varying group only**, and only if templates are
strict. -/
theorem render_error_of_checkRuns {limits : PatternLimits} {source text template : String}
    {p : Pattern} {f : Pattern.Fit} {checked strict : Bool} {e : TemplateError}
    (hparse : Pattern.parse limits source = .ok p) (hcheck : checkRuns checked p template = .ok ())
    (hstrict : strict = true → checked = true) (hfit : p.fit? text = some f)
    (h : render strict f.groups f.rest (some p.hasRest) template = .error e) :
    strict = true ∧ ∃ (i run : Nat) (group : String), (placeholderRuns template)[i]? = some run ∧
      f.groups[i]? = some group ∧ group.length ≠ run ∧ e = .length i run group ∧
      ∃ a ∈ p.members i, a.piece.quantifier? ≠ none := by
  obtain ⟨hcount, hlengths⟩ := checkRuns_eq_ok_iff.mp hcheck
  have hgroups := Pattern.length_groups_of_fit? (Pattern.restLast_of_parse hparse) hfit
  rcases Filling.write_error_cases (eq_error_of_map_eq_error h) with
    hmany | ⟨hs, i, run, group, hrun, hgroup, hne, rfl⟩
  · change f.groups.length < (placeholderRuns template).length at hmany
    omega
  · refine ⟨hs, i, run, group, hrun, hgroup, hne, by rw [Nat.zero_add], ?_⟩
    apply Pattern.exists_quantified_of_groupLength_eq_none
    by_contra hsome
    obtain ⟨k, hk⟩ := Option.ne_none_iff_exists'.mp hsome
    have hcapture := Pattern.length_capture_of_fit? hparse hfit hk hgroup
    have hi : i < p.groupCount := by
      rw [← hgroups]
      exact (List.getElem?_eq_some_iff.mp hgroup).1
    have hfixed : p.groupLengths[i]? = some (some k) := by
      simp [Pattern.groupLengths_eq, hi, hk]
    have hrunk := hlengths (hstrict hs) i run k hrun hfixed
    omega

end CallRouting

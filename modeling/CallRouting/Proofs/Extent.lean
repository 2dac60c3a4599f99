import CallRouting.Proofs.Numbering

/-!
# Where captures lie in the text

The segments of a fit follow one another in the text, so that each atom takes up a stretch of it. A
capture group takes up the stretch from where its first atom starts to where its last atom ends
(`Fit.extent`).

* **Stretches** (`slice_offset`): the text between two offsets is what the segments between them
  hold.
* **Groups** (`groups_eq_slice`, `isDialDigit_of_mem_groups`): a group holds the text of its
  stretch, and digits only.
* **The rest** (`rest_of_fit?`): the atom that takes all that is left takes the end of the text.
* **Together** (`captures_of_fit?`).
-/

namespace CallRouting.Pattern

/-! ## Stretches of the text -/

/-- The position in the text at which the segment with an index starts: so many characters are in
the segments before it. -/
def offset (segments : List String) (index : Nat) : Nat :=
  (String.join (segments.take index)).length

theorem offset_eq (segments : List String) (index : Nat) :
    offset segments index = (String.join (segments.take index)).toList.length :=
  (String.length_toList).symm

/-- The segments hold what those before an index and those from there on hold. -/
theorem toList_join_split (i : Nat) (segments : List String) :
    (String.join segments).toList =
      (String.join (segments.take i)).toList ++ (String.join (segments.drop i)).toList := by
  rw [String.toList_join, String.toList_join, String.toList_join, ← List.flatMap_append,
    List.take_append_drop]

/-- The segments up to an index hold what those up to an earlier index and those between hold. -/
theorem toList_join_take {i j : Nat} (h : i ≤ j) (segments : List String) :
    (String.join (segments.take j)).toList =
      (String.join (segments.take i)).toList ++
        (String.join ((segments.take j).drop i)).toList := by
  have hsplit := toList_join_split i (segments.take j)
  rwa [List.take_take, Nat.min_eq_left h] at hsplit

/-- A later segment does not start before an earlier one. -/
theorem offset_le_offset {i j : Nat} (h : i ≤ j) (segments : List String) :
    offset segments i ≤ offset segments j := by
  rw [offset_eq, offset_eq, toList_join_take h, List.length_append]
  exact Nat.le_add_right _ _

/-- The text from an offset on is what the segments from there on hold. -/
theorem drop_offset (i : Nat) (segments : List String) :
    (String.join segments).toList.drop (offset segments i) =
      (String.join (segments.drop i)).toList := by
  rw [toList_join_split i, offset_eq, List.drop_left]

/-- **The text between two offsets is what the segments between them hold.** -/
theorem slice_offset {i j : Nat} (h : i ≤ j) (segments : List String) :
    Span.slice ⟨offset segments i, offset segments j⟩ (String.join segments).toList =
      (String.join ((segments.take j).drop i)).toList := by
  rw [Span.slice, toList_join_split j, offset_eq, offset_eq, toList_join_take h, List.append_assoc,
    List.drop_left, List.length_append, Nat.add_sub_cancel_left, List.take_left]

/-- The stretch of the text that a capture group takes up: from where its first atom starts to where
its last atom ends. -/
def Fit.extent (p : Pattern) (f : Fit) (group : Nat) : Span :=
  ⟨offset f.segments (p.groupStart group), offset f.segments (p.groupStop group)⟩

/-! ## Groups -/

/-- A list falls into a beginning and a middle of given lengths, and what is left. -/
theorem exists_split_three {α : Type} {l : List α} {n m : Nat} (h : n + m ≤ l.length) :
    ∃ first middle last, l = first ++ middle ++ last ∧ first.length = n ∧ middle.length = m := by
  refine ⟨l.take n, (l.drop n).take m, (l.drop n).drop m, ?_, ?_, ?_⟩
  · rw [List.append_assoc, List.take_append_drop, List.take_append_drop]
  · rw [List.length_take]
    omega
  · rw [List.length_take, List.length_drop]
    omega

/-- A group whose atoms make a run holds the segments of the run. -/
theorem IsRun.capture_eq {atoms : List Atom} {group : Nat} {before members after : List Atom}
    (h : IsRun atoms group before members after) {segments : List String}
    (hlen : segments.length = atoms.length) :
    capture atoms segments group =
      String.join ((segments.take (before.length + members.length)).drop before.length) := by
  have htotal := congrArg List.length h.split
  rw [List.length_append, List.length_append] at htotal
  -- the segments fall into those of the atoms before the run, of the run, and behind it
  obtain ⟨first, middle, last, hsplit, hfirst, hmiddle⟩ :=
    exists_split_three (show before.length + members.length ≤ segments.length by omega)
  have hnone : ∀ (l : List Atom) (ss : List String), (∀ a ∈ l, a ∈ before ∨ a ∈ after) →
      (l.zip ss).filter (fun q => q.1.group = some group) = [] := by
    intro l ss hl
    refine List.filter_eq_nil_iff.mpr fun q hq => ?_
    rw [decide_eq_true_eq]
    exact h.group_ne (hl _ (List.of_mem_zip hq).1)
  have hall : (members.zip middle).filter (fun q => q.1.group = some group) =
      members.zip middle :=
    List.filter_eq_self.mpr fun q hq => decide_eq_true (h.inside _ (List.of_mem_zip hq).1)
  have hzip : atoms.zip segments = before.zip first ++ members.zip middle ++ after.zip last := by
    rw [h.split, hsplit, List.append_assoc, List.append_assoc, List.zip_append hfirst.symm,
      List.zip_append hmiddle.symm, List.append_assoc]
  have hcut : (segments.take (before.length + members.length)).drop before.length = middle := by
    rw [hsplit, ← hfirst, ← hmiddle, ← List.length_append, List.take_left, List.drop_left]
  rw [capture, hzip, List.filter_append, List.filter_append,
    hnone before first fun _ => Or.inl, hnone after last fun _ => Or.inr, hall, List.nil_append,
    List.append_nil, List.map_snd_zip hmiddle.le, hcut]

variable {limits : PatternLimits} {source text : String} {p : Pattern} {f : Fit}

/-- The segments of a fit are the text. -/
theorem join_segments_of_fit? (h : RestLast p.pieces) (hf : p.fit? text = some f) :
    String.join f.segments = text := by
  obtain ⟨shares, hfirst, rfl⟩ := (fit?_eq_some_iff h).mp hf
  have hsegments : (p.fitOf (shares.map fun share => String.ofList share.taken)).segments.map
      String.toList = shares.map Share.taken := by
    simp [fitOf]
  rw [← String.toList_inj, String.toList_join, List.flatMap_def, hsegments]
  exact hfirst.divides.covered

/-- What a group of a fit holds. -/
theorem groups_getElem?_of_fit? (h : RestLast p.pieces) (hf : p.fit? text = some f) {group : Nat}
    (hgroup : group < p.groupCount) :
    f.groups[group]? = some (capture p.atoms f.segments group) := by
  rw [groups_of_fit? h hf, List.getElem?_map, List.getElem?_range hgroup]
  rfl

/-- **A group holds the text of its stretch.** -/
theorem groups_eq_slice (h : parse limits source = .ok p) (hf : p.fit? text = some f) {group : Nat}
    (hgroup : group < p.groupCount) :
    f.groups[group]? = some (String.ofList ((f.extent p group).slice text.toList)) := by
  have hlast := restLast_of_parse h
  obtain ⟨before, members, after, hrun⟩ := exists_isRun_of_parse h hgroup
  have hlen := (segments_of_fit? hlast hf).1.length_eq.symm
  rw [groups_getElem?_of_fit? hlast hf hgroup, hrun.capture_eq hlen, Fit.extent,
    hrun.groupStart_eq, hrun.groupStop_eq, ← join_segments_of_fit? hlast hf,
    slice_offset (Nat.le_add_right _ _), String.ofList_toList]

/-- **A group holds digits only**, for it is made of digit classes. -/
theorem isDialDigit_of_mem_groups (h : parse limits source = .ok p) (hf : p.fit? text = some f)
    {s : String} (hs : s ∈ f.groups) {c : Char} (hc : c ∈ s.toList) :
    Text.isDialDigit c = true := by
  obtain ⟨hadm, -⟩ := segments_of_fit? (restLast_of_parse h) hf
  obtain ⟨group, -, rfl⟩ : ∃ group < p.groupCount, capture p.atoms f.segments group = s := by
    rw [groups_of_fit? (restLast_of_parse h) hf] at hs
    simpa using hs
  rw [capture, String.toList_join, List.mem_flatMap] at hc
  obtain ⟨segment, hsegment, hc⟩ := hc
  obtain ⟨⟨a, _⟩, hmem, rfl⟩ := List.mem_map.mp hsegment
  obtain ⟨hzip, hgroup⟩ := List.mem_filter.mp hmem
  have hcap := group_isSome_iff_of_parse h (List.of_mem_zip hzip).1
  rw [of_decide_eq_true hgroup] at hcap
  have hone : a.piece.Admits _ := (List.forall₂_iff_zip.mp hadm).2 hzip
  obtain ⟨cls, q, hpiece⟩ := exists_single_of_capturing? hcap.symm
  rw [hpiece] at hone hcap
  have hdigits : cls.isDigitClass = true := by
    by_contra hno
    simp [Piece.capturing?, hno] at hcap
  exact CharClass.isDialDigit_of_accepts hdigits (CharClass.accepts_iff.mpr (hone.2 c hc))

/-! ## The rest -/

/-- What the atom that takes all that is left took is the last segment, if there is such an atom. -/
theorem restCapture_concat {atoms : List Atom} {a : Atom} {segments : List String} {s : String}
    (hlast : RestLast ((atoms ++ [a]).map (·.piece))) (hlen : atoms.length = segments.length) :
    restCapture (atoms ++ [a]) (segments ++ [s]) = if a.piece = .rest then some s else none := by
  have hnone : (atoms.zip segments).find? (fun q => q.1.piece = .rest) = none := by
    refine List.find?_eq_none.mpr fun q hq => ?_
    rw [decide_eq_true_eq]
    intro hrest
    apply hlast
    rw [List.map_append, List.map_singleton, List.dropLast_concat]
    exact List.mem_map.mpr ⟨q.1, (List.of_mem_zip hq).1, hrest⟩
  rw [restCapture, List.zip_append hlen, List.find?_append, hnone, Option.none_or]
  by_cases ha : a.piece = .rest
  · simp [ha]
  · simp [ha]

/-- **There is a rest exactly if the pattern ends in an atom that takes it**, and then it is the end
of the text behind the segments of the other atoms. -/
theorem rest_of_fit? (h : parse limits source = .ok p) (hf : p.fit? text = some f) :
    f.rest.isSome = p.hasRest ∧
      ∀ r, f.rest = some r →
        r.toList = text.toList.drop (offset f.segments (p.atoms.length - 1)) := by
  have hlast := restLast_of_parse h
  obtain ⟨hadm, -⟩ := segments_of_fit? hlast hf
  have hlen := hadm.length_eq
  have hjoin := join_segments_of_fit? hlast hf
  -- the last atom and the last segment, with what stands before them
  obtain ⟨atoms, a, hatoms⟩ : ∃ atoms a, p.atoms = atoms ++ [a] :=
    ⟨_, _, (List.dropLast_append_getLast (atoms_ne_nil_of_parse h)).symm⟩
  have hne : f.segments ≠ [] := by
    rintro hnil
    rw [hnil, hatoms] at hlen
    simp at hlen
  obtain ⟨segments, s, hsegments⟩ : ∃ segments s, f.segments = segments ++ [s] :=
    ⟨_, _, (List.dropLast_append_getLast hne).symm⟩
  rw [hatoms, hsegments, List.length_append, List.length_append, List.length_singleton,
    List.length_singleton, Nat.add_right_cancel_iff] at hlen
  have hcapture : f.rest = if a.piece = .rest then some s else none := by
    rw [rest_eq_of_fit? h hf, hatoms, hsegments]
    refine restCapture_concat ?_ hlen
    rw [← hatoms]
    exact hlast
  have hhas : p.hasRest = decide (a.piece = .rest) := by
    rw [hasRest, hatoms, List.getLast?_concat]
    rfl
  rw [hcapture, hhas]
  by_cases ha : a.piece = .rest
  · rw [if_pos ha, decide_eq_true ha]
    refine ⟨rfl, fun r hr => ?_⟩
    rw [← Option.some.inj hr, ← hjoin, drop_offset, hatoms, hsegments, List.length_append,
      List.length_singleton, Nat.add_sub_cancel, hlen, List.drop_left, String.toList_join]
    simp
  · rw [if_neg ha, decide_eq_false ha]
    exact ⟨rfl, fun r hr => by cases hr⟩

/-! ## The captures together -/

/-- **Captures are what their pattern announces.** There is one for each group. The atoms of a group
stand side by side, and the group holds the text from where the first of them starts to where the
last of them ends; the groups follow one another in the text. They hold digits only, as many as the
length that the pattern gives for the group, if it gives one. There is a rest exactly if the pattern
ends in an atom that takes it, and it is the end of the text behind the segments of the atoms
before. -/
theorem captures_of_fit? (h : parse limits source = .ok p) (hf : p.fit? text = some f) :
    f.groups.length = p.groupCount ∧
      String.join f.segments = text ∧
      (∀ g < p.groupCount,
        p.groupStart g < p.groupStop g ∧ p.groupStop g ≤ p.atoms.length ∧
        (∀ i a, p.atoms[i]? = some a →
          (a.group = some g ↔ p.groupStart g ≤ i ∧ i < p.groupStop g)) ∧
        f.groups[g]? = some (String.ofList ((f.extent p g).slice text.toList))) ∧
      (∀ g k, g < k → k < p.groupCount → (f.extent p g).stop ≤ (f.extent p k).start) ∧
      (∀ s ∈ f.groups, ∀ c ∈ s.toList, Text.isDialDigit c = true) ∧
      (∀ (g k : Nat) (s : String), p.groupLengths[g]? = some (some k) → f.groups[g]? = some s →
        s.length = k) ∧
      f.rest.isSome = p.hasRest ∧
      ∀ r, f.rest = some r →
        r.toList = text.toList.drop (offset f.segments (p.atoms.length - 1)) := by
  have hlast := restLast_of_parse h
  have hatoms : ∀ g < p.groupCount, p.groupStart g < p.groupStop g ∧
      p.groupStop g ≤ p.atoms.length := fun g hg => groupStart_lt_groupStop h hg
  refine ⟨length_groups_of_fit? hlast hf, join_segments_of_fit? hlast hf, fun g hg => ?_,
    fun g k hgk hk => ?_, fun s hs c hc => isDialDigit_of_mem_groups h hf hs hc,
    fun g k s hk hs => ?_, rest_of_fit? h hf⟩
  · exact ⟨(hatoms g hg).1, (hatoms g hg).2, fun i a ha => group_eq_iff_index h hg ha,
      groups_eq_slice h hf hg⟩
  · exact offset_le_offset (groupStop_le_groupStart h hgk hk) f.segments
  · have hlength : p.groupLength g = some k := by
      rw [groupLengths_eq, List.getElem?_map, Option.map_eq_some_iff] at hk
      obtain ⟨g', hg', hlength⟩ := hk
      obtain ⟨hlt, hget⟩ := List.getElem?_eq_some_iff.mp hg'
      rw [List.getElem_range] at hget
      rw [hget]
      exact hlength
    exact length_capture_of_fit? h hf hlength hs

/-- The pattern `Nxx-X+X?[1|12]Z`: two groups, one of them with quantifiers. -/
def areaAndNumber : Pattern :=
  ⟨"Nxx-X+X?[1|12]Z",
    [⟨0, .single .restricted none, some 0⟩, ⟨1, .single .nextDigit none, some 0⟩,
      ⟨2, .single .nextDigit none, some 0⟩, ⟨3, .single (.literal '-') none, none⟩,
      ⟨4, .single .anyDigit (some .oneOrMore), some 1⟩,
      ⟨6, .single .anyDigit (some .optional), some 1⟩,
      ⟨8, .choice [[⟨9, .literal '1'⟩], [⟨11, .literal '1'⟩, ⟨12, .literal '2'⟩]], none⟩,
      ⟨14, .rest, none⟩], 2⟩

/-- The quantifiers of the second group leave a digit to the alternatives. -/
theorem captures_of_fit?_areaAndNumber :
    ∃ f, parse ⟨256, 32, 0⟩ "Nxx-X+X?[1|12]Z" = .ok areaAndNumber ∧
      areaAndNumber.fit? "555-1231299" = some f ∧ f.groups = ["555", "123"] ∧
      f.groups.length = areaAndNumber.groupCount := by
  have hparse : parse ⟨256, 32, 0⟩ "Nxx-X+X?[1|12]Z" = .ok areaAndNumber := rfl
  have hfit : areaAndNumber.fit? "555-1231299" =
      some ⟨["555", "123"], some "299", ["5", "5", "5", "-", "123", "", "1", "299"]⟩ := by
    rw [fit?_eq]
    rfl
  exact ⟨_, hparse, hfit, rfl, (captures_of_fit? hparse hfit).1⟩

end CallRouting.Pattern

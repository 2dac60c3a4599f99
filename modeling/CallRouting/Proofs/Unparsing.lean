import CallRouting.Proofs.Assembly

/-!
# The source of a pattern can be read off its atoms

Reading loses nothing: written one after the other, the atoms of a pattern are its source, and each
class inside a group is where the source has its character.

* **Written atoms** (`Atom.written`): an atom is written as its token and its quantifier, a group as
  the text from its opening bracket to the first closing one.
* **Groups** (`SpellsOut`): the classes of a group spell out the text between the brackets, but for
  bars and parentheses. The text of a well-formed group is spelled out by its atom
  (`spellsOut_alternativesAt`).
* **Layouts** (`map_written_layout`, `exists_phrase_of_layout_eq`): the atoms of phrases are written
  as the phrases are, and each stands where those before it end.
* **Patterns** (`source_of_atoms`): numbering and the marking of the last atom change neither
  positions nor what is written.
-/

namespace CallRouting

/-! ## Written atoms -/

/-- The characters of a text between the bracket at a position and the first closing bracket behind
it. -/
def bodyAt (cs : List Char) (position : Nat) : List Char :=
  (cs.drop (position + 1)).takeWhile (· ≠ ']')

/-- An atom as it is written: its token and its quantifier or, for a group, what the text it was
read from has in brackets. -/
def Atom.written (cs : List Char) (a : Atom) : List Char :=
  match a.piece with
  | .single cls q => cls.token :: (q.map Quantifier.token).toList
  | .choice _ => '[' :: (bodyAt cs a.position ++ [']'])
  | .rest => ['Z']

/-- An atom is written with its token in front. -/
theorem Atom.head?_written (cs : List Char) (a : Atom) :
    (a.written cs).head? = some a.piece.token := by
  obtain ⟨position, piece, group⟩ := a
  cases piece <;> rfl

namespace Pattern

/-! ## Groups -/

/-- Whether the classes of a group that opens at a position spell out what is between its brackets:
split at the bars and without parentheses, it is the tokens of the alternatives; the classes stand
where these characters do, and each is the one that its character stands for, a `Z` a digit from 1
to 9. -/
structure SpellsOut (cs : List Char) (position : Nat) (alternatives : List (List Slot)) : Prop where
  tokens : alternatives.map (·.map (·.cls.token)) =
    ((bodyAt cs position).splitOn '|').map bare
  places : alternatives.flatten.map (fun slot => (slot.cls.token, slot.position)) =
    ((bodyAt cs position).zipIdx (position + 1)).filter fun x => x.1 ∉ ['|', '(', ')']
  characters : ∀ slot ∈ alternatives.flatten, cs[slot.position]? = some slot.cls.token
  classes : ∀ slot ∈ alternatives.flatten, slot.cls = .ofToken slot.cls.token

/-- The body of a group is what stands between its brackets. -/
theorem bodyAt_eq (before after : List Char) {body : List Char} (h : ']' ∉ body) :
    bodyAt (before ++ '[' :: (body ++ ']' :: after)) before.length = body := by
  have hopen : ∀ c ∈ body, decide (c ≠ ']') = true := by
    intro c hc
    rw [decide_eq_true_eq]
    rintro rfl
    exact h hc
  have hdrop : (before ++ '[' :: (body ++ ']' :: after)).drop (before.length + 1) =
      body ++ ']' :: after := by
    rw [drop_of_split rfl]
  rw [bodyAt, hdrop, List.takeWhile_append_of_pos hopen, List.takeWhile_cons_of_neg (by simp),
    List.append_nil]

/-- The tokens of an alternative are its characters besides parentheses. -/
theorem map_token_slotsAt (n : Nat) (a : List Char) :
    (slotsAt n a).map (·.cls.token) = bare a := by
  have hunplaced := congrArg (List.map fun slot : Slot => slot.cls.token)
    (Phrase.map_unplaced_slotsAt n a)
  rw [List.map_map, List.map_map] at hunplaced
  simpa [Function.comp_def, Slot.unplaced] using hunplaced

/-- Each class of an alternative stands where its character does. -/
theorem map_places_slotsAt (n : Nat) (a : List Char) (h : '|' ∉ a) :
    (slotsAt n a).map (fun slot => (slot.cls.token, slot.position)) =
      (a.zipIdx n).filter fun x => x.1 ∉ ['|', '(', ')'] := by
  induction a generalizing n with
  | nil => rfl
  | cons c rest ih =>
    rw [List.mem_cons, not_or] at h
    have hc : c ≠ '|' := Ne.symm h.1
    rw [slotsAt, List.zipIdx_cons]
    by_cases hp : c = '(' ∨ c = ')'
    · rw [if_pos hp, ih _ h.2,
        List.filter_cons_of_neg (by simpa [hc, or_iff_not_imp_left] using hp)]
    · rw [if_neg hp, List.map_cons, ih _ h.2, CharClass.token_ofToken,
        List.filter_cons_of_pos (by simpa [hc] using hp)]

/-- The classes of several alternatives stand where their characters do. -/
theorem map_places_alternativesAt (n : Nat) (a : List Char) (rest : List (List Char))
    (h : ∀ b ∈ a :: rest, '|' ∉ b) :
    (alternativesAt n (a :: rest)).flatten.map (fun slot => (slot.cls.token, slot.position)) =
      ((['|'].intercalate (a :: rest)).zipIdx n).filter fun x => x.1 ∉ ['|', '(', ')'] := by
  induction rest generalizing n a with
  | nil =>
    rw [List.intercalate_singleton, alternativesAt, alternativesAt, List.flatten_cons,
      List.flatten_nil, List.append_nil]
    exact map_places_slotsAt n a (h a List.mem_cons_self)
  | cons b rest ih =>
    obtain ⟨ha, hrest⟩ := List.forall_mem_cons.mp h
    rw [alternativesAt, List.flatten_cons, List.map_append, ih _ _ hrest, map_places_slotsAt n a ha,
      List.intercalate_cons_cons, List.append_assoc, List.zipIdx_append, List.filter_append,
      List.zipIdx_append, List.filter_append, List.zipIdx_singleton]
    rfl

/-- Classes are read from their tokens. -/
theorem ofToken_token_of_mem_slotsAt {n : Nat} {a : List Char} {slot : Slot}
    (h : slot ∈ slotsAt n a) : slot.cls = .ofToken slot.cls.token := by
  induction a generalizing n with
  | nil => cases h
  | cons c rest ih =>
    rw [slotsAt] at h
    split_ifs at h
    · exact ih h
    · rcases List.mem_cons.mp h with rfl | h
      · rw [CharClass.token_ofToken]
      · exact ih h

/-- An alternative of a group is read from one of its texts. -/
theorem exists_slotsAt_of_mem_alternativesAt {n : Nat} {texts : List (List Char)}
    {slots : List Slot} (h : slots ∈ alternativesAt n texts) : ∃ m a, slots = slotsAt m a := by
  induction texts generalizing n with
  | nil => cases h
  | cons a rest ih =>
    rcases List.mem_cons.mp h with rfl | h
    · exact ⟨n, a, rfl⟩
    · exact ih h

/-- **A well-formed group is spelled out by its atom**, wherever it stands. -/
theorem spellsOut_alternativesAt (before after : List Char) {texts : List (List Char)}
    (h : (Phrase.group texts).WellFormed) :
    SpellsOut (before ++ (Phrase.group texts).text ++ after) before.length
      (alternativesAt (before.length + 1) texts) := by
  have hbar : ∀ a ∈ texts, '|' ∉ a := by
    intro a ha hmem
    exact ((h.2 a ha).unreserved _ hmem).2.2 rfl
  obtain ⟨a, rest, rfl⟩ := List.exists_cons_of_length_pos (Nat.lt_of_lt_of_le Nat.zero_lt_two h.1)
  have htext : before ++ (Phrase.group (a :: rest)).text ++ after =
      before ++ '[' :: (['|'].intercalate (a :: rest) ++ ']' :: after) := by
    simp [Phrase.text]
  have hbody := bodyAt_eq before after (not_mem_body h)
  have hplaces := map_places_alternativesAt (before.length + 1) a rest hbar
  rw [htext]
  refine ⟨?_, by rw [hbody]; exact hplaces, fun slot hslot => ?_, fun slot hslot => ?_⟩
  · rw [hbody, List.splitOn_intercalate _ hbar (List.cons_ne_nil _ _)]
    have htokens : ∀ n texts, (alternativesAt n texts).map (·.map (·.cls.token)) =
        texts.map bare := by
      intro n texts
      induction texts generalizing n with
      | nil => rfl
      | cons b texts ih => rw [alternativesAt, List.map_cons, map_token_slotsAt, ih, List.map_cons]
    exact htokens _ _
  · -- the place of a class is one of those that the text between the brackets has
    have hmem : (slot.cls.token, slot.position) ∈
        ((['|'].intercalate (a :: rest)).zipIdx (before.length + 1)) := by
      refine List.mem_of_mem_filter (p := fun x => x.1 ∉ ['|', '(', ')']) ?_
      rw [← hplaces]
      exact List.mem_map_of_mem hslot
    obtain ⟨hle, hget⟩ := List.mk_mem_zipIdx_iff_le_and_getElem?_sub.mp hmem
    obtain ⟨k, hk⟩ := Nat.exists_eq_add_of_le hle
    rw [hk, Nat.add_sub_cancel_left] at hget
    rw [hk, Nat.add_assoc, Nat.add_comm 1 k, List.getElem?_append_right (Nat.le_add_right _ _),
      Nat.add_sub_cancel_left, List.getElem?_cons_succ,
      List.getElem?_append_left (List.getElem?_eq_some_iff.mp hget).1, hget]
  · obtain ⟨slots, hslots, hslot⟩ := List.mem_flatten.mp hslot
    obtain ⟨m, b, rfl⟩ := exists_slotsAt_of_mem_alternativesAt hslots
    exact ofToken_token_of_mem_slotsAt hslot

/-! ## Layouts -/

/-- The atom of a well-formed phrase is written as the phrase is, wherever it stands. -/
theorem Phrase.written_atom {u : Phrase} (h : u.WellFormed) (before after : List Char) :
    (u.atom before.length).written (before ++ u.text ++ after) = u.text := by
  cases u with
  | plain c q =>
    change (CharClass.ofToken c).token :: _ = _
    rw [CharClass.token_ofToken]
    rfl
  | group texts =>
    have htext : before ++ (Phrase.group texts).text ++ after =
        before ++ '[' :: (['|'].intercalate texts ++ ']' :: after) := by
      simp [Phrase.text]
    rw [htext]
    change '[' :: (bodyAt _ before.length ++ [']']) = _
    rw [bodyAt_eq before after (not_mem_body h)]
    rfl

/-- **The atoms of phrases are written as the phrases are.** -/
theorem map_written_layout (before : List Char) {us : List Phrase} (h : ∀ u ∈ us, u.WellFormed) :
    (layout before.length us).map (Atom.written (before ++ textOf us)) = us.map Phrase.text := by
  induction us generalizing before with
  | nil => rfl
  | cons u us ih =>
    obtain ⟨hu, hus⟩ := List.forall_mem_cons.mp h
    have hhead := Phrase.written_atom hu before (textOf us)
    have htail := ih (before ++ u.text) hus
    rw [List.length_append] at htail
    rw [layout, List.map_cons, List.map_cons, textOf_cons, ← List.append_assoc, hhead, htail]

/-- **An atom stands where those before it end.** -/
theorem exists_phrase_of_layout_eq {n : Nat} {us : List Phrase} {before after : List Atom}
    {a : Atom} (h : layout n us = before ++ a :: after) :
    ∃ vs u ws, us = vs ++ u :: ws ∧ before = layout n vs ∧
      a = u.atom (n + (textOf vs).length) := by
  induction us generalizing n before with
  | nil => simp [layout] at h
  | cons u us ih =>
    cases before with
    | nil =>
      rw [layout, List.nil_append, List.cons.injEq] at h
      exact ⟨[], u, us, rfl, rfl, h.1.symm⟩
    | cons b before =>
      rw [layout, List.cons_append, List.cons.injEq] at h
      obtain ⟨vs, v, ws, rfl, rfl, rfl⟩ := ih h.2
      refine ⟨u :: vs, v, ws, rfl, by rw [layout, h.1], ?_⟩
      rw [textOf_cons, List.length_append, Nat.add_assoc]

/-- A layout starts at its first position. -/
theorem le_position_of_mem_layout {n : Nat} {us : List Phrase} {a : Atom} (h : a ∈ layout n us) :
    n ≤ a.position := by
  induction us generalizing n with
  | nil => cases h
  | cons u us ih =>
    rw [layout] at h
    rcases List.mem_cons.mp h with rfl | h
    · exact le_rfl
    · exact (Nat.le_add_right n _).trans (ih h)

/-- In a layout, positions grow from atom to atom. -/
theorem pairwise_position_layout (n : Nat) (us : List Phrase) :
    ((layout n us).map (·.position)).Pairwise (· < ·) := by
  induction us generalizing n with
  | nil => exact .nil
  | cons u us ih =>
    rw [layout, List.map_cons, List.pairwise_cons]
    refine ⟨?_, ih _⟩
    intro position hmem
    obtain ⟨a, ha, rfl⟩ := List.mem_map.mp hmem
    have hle := le_position_of_mem_layout ha
    have hpos := List.length_pos_iff.mpr u.text_ne_nil
    change n < a.position
    omega

/-! ## Patterns -/

variable {limits : PatternLimits} {source : String} {p : Pattern}

/-- Neither numbering nor the marking of the last atom changes positions and what is written. -/
theorem map_placed_ofPhrases (cs : List Char) (source : String) (us : List Phrase) :
    (ofPhrases source us).atoms.map (fun a => (a.position, a.written cs)) =
      (layout 0 us).map fun a => (a.position, a.written cs) := by
  have hmark : ∀ a : Atom, a.piece = .single .nonZero none →
      Atom.written cs { a with piece := .rest } = a.written cs := by
    intro a ha
    rw [Atom.written, Atom.written, ha]
    rfl
  have hgroup : ∀ (a : Atom) (group : Option Nat),
      Atom.written cs { a with group := group } = a.written cs := fun _ _ => rfl
  rw [ofPhrases, map_numberGroups _ (fun a group => by rw [hgroup]),
    map_atomsOf _ (fun a ha => by rw [hmark a ha])]

/-- The atoms of a pattern that was read are written as its phrases are. -/
theorem map_written_ofPhrases {us : List Phrase} (hus : ∀ u ∈ us, u.WellFormed)
    (htext : textOf us = source.toList) :
    (ofPhrases source us).atoms.map (Atom.written source.toList) = us.map Phrase.text := by
  have hplaced := congrArg (List.map Prod.snd) (map_placed_ofPhrases source.toList source us)
  rw [List.map_map, List.map_map] at hplaced
  have hlayout := map_written_layout [] hus
  rw [List.nil_append, htext] at hlayout
  exact hplaced.trans hlayout

/-- **Written one after the other, the atoms of a pattern are its source.** -/
theorem flatMap_written (h : parse limits source = .ok p) :
    p.atoms.flatMap (Atom.written source.toList) = source.toList := by
  obtain ⟨-, us, -, hus, htext, rfl⟩ := parse_eq_ok_iff.mp h
  rw [List.flatMap_def, map_written_ofPhrases hus.wellFormed htext, ← htext]
  rfl

/-- **Each atom of a pattern stands where those before it end.** -/
theorem position_eq_length_written (h : parse limits source = .ok p) {before after : List Atom}
    {a : Atom} (hsplit : p.atoms = before ++ a :: after) :
    a.position = (before.flatMap (Atom.written source.toList)).length := by
  obtain ⟨-, us, -, hus, htext, rfl⟩ := parse_eq_ok_iff.mp h
  have hwritten := map_written_ofPhrases hus.wellFormed htext
  have hplaced := map_placed_ofPhrases source.toList source us
  rw [hsplit, List.map_append, List.map_cons] at hwritten
  rw [hsplit, List.map_append, List.map_cons, eq_comm, List.map_eq_append_iff] at hplaced
  obtain ⟨first, last, hlayout, hfirst, hlast⟩ := hplaced
  obtain ⟨b, rest, rfl, hb, -⟩ := List.map_eq_cons_iff.mp hlast
  obtain ⟨vs, u, ws, rfl, rfl, rfl⟩ := exists_phrase_of_layout_eq hlayout
  have hlength : before.length = vs.length := by
    simpa using (congrArg List.length hfirst).symm
  rw [List.map_append, List.map_cons] at hwritten
  have hbefore := List.append_inj_left hwritten (by simpa using hlength)
  have hposition : 0 + (textOf vs).length = a.position := congrArg Prod.fst hb
  rw [List.flatMap_def, hbefore, ← hposition, Nat.zero_add]
  rfl

/-- The text in front of an atom, the atom and the text behind it. -/
theorem source_eq_of_split (h : parse limits source = .ok p) {before after : List Atom}
    {a : Atom} (hsplit : p.atoms = before ++ a :: after) :
    source.toList = before.flatMap (Atom.written source.toList) ++
      (a.written source.toList ++ after.flatMap (Atom.written source.toList)) := by
  have hflat := flatMap_written h
  rw [hsplit, List.flatMap_append, List.flatMap_cons] at hflat
  exact hflat.symm

/-- **Each atom stands at its token.** -/
theorem getElem?_position (h : parse limits source = .ok p) {a : Atom} (ha : a ∈ p.atoms) :
    source.toList[a.position]? = some a.piece.token := by
  obtain ⟨before, after, hsplit⟩ := List.append_of_mem ha
  obtain ⟨rest, hrest⟩ := List.head?_eq_some_iff.mp (a.head?_written source.toList)
  have hsource := source_eq_of_split h hsplit
  rw [hrest] at hsource
  rw [position_eq_length_written h hsplit]
  exact getElem?_of_split hsource

/-- **Positions grow from atom to atom.** -/
theorem pairwise_position (h : parse limits source = .ok p) :
    (p.atoms.map (·.position)).Pairwise (· < ·) := by
  obtain ⟨-, us, -, -, -, rfl⟩ := parse_eq_ok_iff.mp h
  have hplaced := congrArg (List.map Prod.fst) (map_placed_ofPhrases source.toList source us)
  rw [List.map_map, List.map_map] at hplaced
  have hpositions : (ofPhrases source us).atoms.map (·.position) =
      (layout 0 us).map (·.position) := hplaced
  rw [hpositions]
  exact pairwise_position_layout 0 us

/-- **The alternatives of a pattern are spelled out** where their group stands. -/
theorem spellsOut_of_mem (h : parse limits source = .ok p) {a : Atom} (ha : a ∈ p.atoms)
    {alternatives : List (List Slot)} (hpiece : a.piece = .choice alternatives) :
    SpellsOut source.toList a.position alternatives := by
  obtain ⟨-, us, -, hus, htext, rfl⟩ := parse_eq_ok_iff.mp h
  -- numbering apart, the atom is one of the layout of the phrases
  have hmem : (a.position, a.piece) ∈ (atomsOf us).map fun b => (b.position, b.piece) := by
    rw [← map_numberGroups (fun b => (b.position, b.piece)) (fun _ _ => rfl) none 0]
    exact List.mem_map_of_mem ha
  obtain ⟨b, hb, heq⟩ := List.mem_map.mp hmem
  obtain ⟨hposition, hpiece'⟩ := Prod.mk.inj heq
  rw [hpiece] at hpiece'
  rcases mem_layout_of_mem_atomsOf hb with hrest | hlayout
  · rw [hrest] at hpiece'
    cases hpiece'
  obtain ⟨before, after, hsplit⟩ := List.append_of_mem hlayout
  obtain ⟨vs, u, ws, rfl, -, rfl⟩ := exists_phrase_of_layout_eq hsplit
  cases u with
  | plain c q => cases hpiece'
  | group texts =>
    have hwellFormed := hus.wellFormed (.group texts) (by simp)
    have hspells := spellsOut_alternativesAt (textOf vs) (textOf ws) hwellFormed
    rw [← hposition, ← htext]
    simp only [Phrase.atom, Phrase.piece, Piece.choice.injEq, Nat.zero_add] at hpiece' ⊢
    rw [← hpiece']
    simpa using hspells

/-- **Only the last atom takes all that is left**, and only if the source ends in `Z`. -/
theorem piece_eq_rest_iff (h : parse limits source = .ok p) {i : Nat} (hi : i < p.atoms.length) :
    p.atoms[i].piece = .rest ↔
      i + 1 = p.atoms.length ∧ source.toList.getLast? = some 'Z' := by
  rw [← hasRest_iff_getLast?_source h]
  have hlast : ∀ _ : i + 1 = p.atoms.length, p.hasRest = true ↔ p.atoms[i].piece = .rest := by
    intro hi'
    have hindex : p.atoms.length - 1 = i := by omega
    rw [hasRest, List.getLast?_eq_getElem?, hindex, List.getElem?_eq_getElem hi]
    simp
  constructor
  · intro hrest
    have hi' : i + 1 = p.atoms.length := by
      by_contra hne
      apply restLast_of_parse h
      have hbefore : i < p.pieces.dropLast.length := by
        rw [List.length_dropLast, length_pieces]
        omega
      have hget : p.pieces.dropLast[i] = .rest := by
        simpa [pieces] using hrest
      rw [← hget]
      exact List.getElem_mem hbefore
    exact ⟨hi', (hlast hi').mpr hrest⟩
  · rintro ⟨hi', hrest⟩
    exact (hlast hi').mp hrest

/-- **Reading loses nothing of the source.** In every pattern that was read, positions grow from
atom to atom, and the source has the token of each atom at its position. Written one after the other, the
atoms are the source, and each of them stands where those before it end, so that no character is
skipped and none is used twice. The alternatives of a group spell out the text between its brackets.
An atom takes all that is left exactly if it is the last one and the source ends in `Z`. -/
theorem source_of_atoms (h : parse limits source = .ok p) :
    (p.atoms.map (·.position)).Pairwise (· < ·) ∧
      (∀ a ∈ p.atoms, source.toList[a.position]? = some a.piece.token) ∧
      p.atoms.flatMap (Atom.written source.toList) = source.toList ∧
      (∀ before a after, p.atoms = before ++ a :: after →
        a.position = (before.flatMap (Atom.written source.toList)).length) ∧
      (∀ a ∈ p.atoms, ∀ alternatives, a.piece = .choice alternatives →
        SpellsOut source.toList a.position alternatives) ∧
      ∀ i (_ : i < p.atoms.length), p.atoms[i].piece = .rest ↔
        i + 1 = p.atoms.length ∧ source.toList.getLast? = some 'Z' := by
  refine ⟨pairwise_position h, ?_, flatMap_written h, ?_, ?_, ?_⟩
  · intro a ha
    exact getElem?_position h ha
  · intro before a after hsplit
    exact position_eq_length_written h hsplit
  · intro a ha alternatives hpiece
    exact spellsOut_of_mem h ha hpiece
  · intro i hi
    exact piece_eq_rest_iff h hi

/-- The pattern `N+[1(2)|Z]-Z`: a quantifier, parentheses inside a group, and a `Z` in each role. -/
def quantifiedGroupRest : Pattern :=
  ⟨"N+[1(2)|Z]-Z",
    [⟨0, .single .restricted (some .oneOrMore), some 0⟩,
      ⟨2, .choice [[⟨3, .literal '1'⟩, ⟨5, .literal '2'⟩], [⟨8, .nonZero⟩]], none⟩,
      ⟨10, .single (.literal '-') none, none⟩, ⟨11, .rest, none⟩], 1⟩

/-- Parentheses are skipped inside the group and kept in its text. -/
theorem source_of_atoms_quantifiedGroupRest :
    parse ⟨256, 32, 0⟩ "N+[1(2)|Z]-Z" = .ok quantifiedGroupRest ∧
      quantifiedGroupRest.atoms.flatMap (Atom.written "N+[1(2)|Z]-Z".toList) =
        "N+[1(2)|Z]-Z".toList ∧
      SpellsOut "N+[1(2)|Z]-Z".toList 2
        [[⟨3, .literal '1'⟩, ⟨5, .literal '2'⟩], [⟨8, .nonZero⟩]] := by
  have hparse : parse ⟨256, 32, 0⟩ "N+[1(2)|Z]-Z" = .ok quantifiedGroupRest := rfl
  obtain ⟨-, -, hwritten, -, hgroups, -⟩ := source_of_atoms hparse
  exact ⟨hparse, hwritten, hgroups
    ⟨2, .choice [[⟨3, .literal '1'⟩, ⟨5, .literal '2'⟩], [⟨8, .nonZero⟩]], none⟩
    (by decide) _ rfl⟩

end Pattern

end CallRouting

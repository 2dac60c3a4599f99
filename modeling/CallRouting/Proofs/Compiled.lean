import CallRouting.Proofs.Grammar
import CallRouting.Proofs.Share

/-!
# What a pattern that was read is like

Facts about every pattern that the reader answers with: the atom that takes all that is left stands
last (`restLast_of_parse`), there is an atom (`atoms_ne_nil_of_parse`), and there are no more atoms
than characters (`length_atoms_le_of_parse`). A character repeated shows that there can be as many
(`parse_replicate`).
-/

namespace CallRouting.Pattern

/-- What the atoms of a pattern stand for, from left to right. -/
def pieces (p : Pattern) : List Piece := p.atoms.map (·.piece)

@[simp] theorem length_pieces (p : Pattern) : p.pieces.length = p.atoms.length := List.length_map ..

/-! ## Pieces -/

/-- Numbering the capture groups changes nothing of the atoms but their groups. -/
theorem map_numberGroups {β : Type} (g : Atom → β) (hg : ∀ a group, g { a with group } = g a)
    (previous : Option (CharClass × Nat)) (count : Nat) (atoms : List Atom) :
    (numberGroups previous count atoms).1.map g = atoms.map g := by
  induction atoms generalizing previous count with
  | nil => rfl
  | cons atom rest ih =>
    rw [numberGroups]
    cases atom.piece.capturing? with
    | none => simp [ih]
    | some cls => simp [ih, hg]

/-- Numbering the capture groups does not change what the atoms stand for. -/
theorem map_piece_numberGroups (previous : Option (CharClass × Nat)) (count : Nat)
    (atoms : List Atom) :
    (numberGroups previous count atoms).1.map (·.piece) = atoms.map (·.piece) :=
  map_numberGroups (·.piece) (fun _ _ => rfl) previous count atoms

/-- A phrase does not stand for all that is left. -/
theorem Phrase.piece_ne_rest (n : Nat) (u : Phrase) : u.piece n ≠ .rest := by
  cases u <;> exact Piece.noConfusion

/-- No atom of a layout takes all that is left. -/
theorem piece_ne_rest_of_mem_layout {n : Nat} {us : List Phrase} {a : Atom}
    (h : a ∈ layout n us) : a.piece ≠ .rest := by
  induction us generalizing n with
  | nil => cases h
  | cons u us ih =>
    rcases List.mem_cons.mp h with rfl | h
    · exact u.piece_ne_rest n
    · exact ih h

/-- What the marking of the last atom comes to. -/
theorem markRest_cases (atoms : List Atom) :
    markRest atoms = atoms ∨ ∃ position group before,
      atoms = ⟨position, .single .nonZero none, group⟩ :: before ∧
        markRest atoms = ⟨position, .rest, group⟩ :: before := by
  unfold markRest
  split
  · exact Or.inr ⟨_, _, _, rfl, rfl⟩
  · exact Or.inl rfl

/-- The marking of the last atom changes nothing but that it takes what is left. -/
theorem map_atomsOf {β : Type} (g : Atom → β)
    (hg : ∀ a : Atom, a.piece = .single .nonZero none → g { a with piece := .rest } = g a)
    (us : List Phrase) : (atomsOf us).map g = (layout 0 us).map g := by
  rw [atomsOf]
  rcases markRest_cases (layout 0 us).reverse with h | ⟨position, group, before, h, hmark⟩
  · rw [h, List.reverse_reverse]
  · have hlast : g ⟨position, .rest, group⟩ = g ⟨position, .single .nonZero none, group⟩ :=
      hg ⟨position, .single .nonZero none, group⟩ rfl
    rw [hmark, ← List.reverse_reverse (layout 0 us), h, List.map_reverse, List.map_reverse,
      List.map_cons, List.map_cons, hlast]

/-- Before they are numbered, atoms are those of the layout, but for the one that takes what is
left. -/
theorem mem_layout_of_mem_atomsOf {us : List Phrase} {a : Atom} (h : a ∈ atomsOf us) :
    a.piece = .rest ∨ a ∈ layout 0 us := by
  rw [atomsOf, List.mem_reverse] at h
  rcases markRest_cases (layout 0 us).reverse with heq | ⟨position, group, before, heq, hmark⟩
  · rw [heq, List.mem_reverse] at h
    exact Or.inr h
  · rw [hmark] at h
    rcases List.mem_cons.mp h with rfl | h
    · exact Or.inl rfl
    · refine Or.inr (List.mem_reverse.mp ?_)
      rw [heq]
      exact List.mem_cons_of_mem _ h

/-- There is one atom for each phrase. -/
@[simp] theorem length_atomsOf (us : List Phrase) : (atomsOf us).length = us.length := by
  rw [atomsOf, List.length_reverse]
  rcases markRest_cases (layout 0 us).reverse with h | ⟨position, group, before, h, hmark⟩
  · rw [h, List.length_reverse, length_layout]
  · have hlen := congrArg List.length h
    rw [List.length_reverse, length_layout] at hlen
    rw [hmark, hlen]
    rfl

/-- What the atoms stand for is fixed before their groups are numbered. -/
theorem pieces_ofPhrases (source : String) (us : List Phrase) :
    (ofPhrases source us).pieces = (atomsOf us).map (·.piece) :=
  map_piece_numberGroups none 0 (atomsOf us)

/-- The atom that takes all that is left stands nowhere but in the last place. -/
theorem restLast_ofPhrases (source : String) (us : List Phrase) :
    RestLast (ofPhrases source us).pieces := by
  rw [pieces_ofPhrases, RestLast, atomsOf]
  rcases markRest_cases (layout 0 us).reverse with h | ⟨position, group, before, h, hmark⟩
  · rw [h, List.reverse_reverse]
    intro hmem
    obtain ⟨a, ha, hrest⟩ := List.mem_map.mp (List.dropLast_subset _ hmem)
    exact piece_ne_rest_of_mem_layout ha hrest
  · rw [hmark]
    intro hmem
    rw [List.reverse_cons, List.map_append, List.map_singleton, List.dropLast_concat] at hmem
    obtain ⟨a, ha, hrest⟩ := List.mem_map.mp hmem
    have hlayout : a ∈ layout 0 us := by
      rw [← List.mem_reverse, h]
      exact List.mem_cons_of_mem _ (List.mem_reverse.mp ha)
    exact piece_ne_rest_of_mem_layout hlayout hrest

variable {limits : PatternLimits} {source : String} {p : Pattern}

/-- In every pattern that was read, the atom that takes all that is left stands last. -/
theorem restLast_of_parse (h : parse limits source = .ok p) : RestLast p.pieces := by
  obtain ⟨-, us, -, -, -, rfl⟩ := parse_eq_ok_iff.mp h
  exact restLast_ofPhrases source us

/-- A pattern that was read has an atom for each phrase of its source. -/
theorem length_atoms_ofPhrases (source : String) (us : List Phrase) :
    (ofPhrases source us).atoms.length = us.length := by
  rw [ofPhrases, length_numberGroups, length_atomsOf]

/-- A pattern that was read has an atom. -/
theorem atoms_ne_nil_of_parse (h : parse limits source = .ok p) : p.atoms ≠ [] := by
  obtain ⟨-, us, hne, -, -, rfl⟩ := parse_eq_ok_iff.mp h
  intro hnil
  have hlen := length_atoms_ofPhrases source us
  rw [hnil] at hlen
  exact hne (List.length_eq_zero_iff.mp hlen.symm)

/-- A sequence of phrases has no more phrases than characters. -/
theorem length_le_length_textOf (us : List Phrase) : us.length ≤ (textOf us).length := by
  induction us with
  | nil => simp
  | cons u us ih =>
    have hpos := List.length_pos_iff.mpr u.text_ne_nil
    rw [textOf_cons, List.length_append, List.length_cons]
    omega

/-- A pattern that was read has no more atoms than its source has characters. -/
theorem length_atoms_le_of_parse (h : parse limits source = .ok p) :
    (p.atoms.length : Int) ≤ limits.maxLength := by
  obtain ⟨hlen, us, -, -, htext, rfl⟩ := parse_eq_ok_iff.mp h
  have hle := length_le_length_textOf us
  rw [htext] at hle
  rw [length_atoms_ofPhrases]
  omega

/-- A pattern that was read keeps its source. -/
theorem source_of_parse (h : parse limits source = .ok p) : p.source = source := by
  obtain ⟨-, us, -, -, -, rfl⟩ := parse_eq_ok_iff.mp h
  rfl

/-! ## A character repeated -/

variable {c : Char} {n : Nat}

/-- The text of a character repeated. -/
theorem textOf_replicate (n : Nat) (c : Char) :
    textOf (List.replicate n (.plain c none)) = List.replicate n c := by
  induction n with
  | zero => rfl
  | succ n ih => rw [List.replicate_succ, textOf_cons, ih, List.replicate_succ]; rfl

/-- A character that is not reserved makes a pattern when it is repeated. -/
theorem parse_replicate (hc : c ∉ reserved) (hn : n ≠ 0) (hlen : (n : Int) ≤ limits.maxLength) :
    parse limits (String.ofList (List.replicate n c)) =
      .ok (ofPhrases (String.ofList (List.replicate n c)) (List.replicate n (.plain c none))) := by
  refine parse_eq_ok_iff.mpr
    ⟨by simpa using hlen, List.replicate n (.plain c none), ?_, ?_, ?_, rfl⟩
  · simpa using hn
  · refine ⟨fun u hu => ?_, Or.inl ?_⟩
    · rw [List.eq_of_mem_replicate hu]
      exact hc
    · simp [quantifiedCount, List.countP_replicate, Phrase.isQuantified]
  · rw [textOf_replicate, String.toList_ofList]

/-- Unless it is a digit class, a character repeated stands for so many of the character. -/
theorem pieces_replicate (source : String) (n : Nat) (hc : CharClass.ofToken c ≠ .nonZero) :
    (ofPhrases source (List.replicate n (.plain c none))).pieces =
      List.replicate n (.single (.ofToken c) none) := by
  have hlayout : ∀ k, (layout k (List.replicate n (.plain c none))).map (·.piece) =
      List.replicate n (.single (.ofToken c) none) := by
    induction n with
    | zero => exact fun _ => rfl
    | succ n ih =>
      intro k
      rw [List.replicate_succ, layout, List.map_cons, ih, List.replicate_succ]
      rfl
  rw [pieces_ofPhrases, atomsOf]
  rcases markRest_cases (layout 0 (List.replicate n (.plain c none))).reverse with
    h | ⟨position, group, before, h, -⟩
  · rw [h, List.reverse_reverse, hlayout]
  · have hmem : Piece.single .nonZero none ∈
        (layout 0 (List.replicate n (.plain c none))).map (·.piece) := by
      refine List.mem_map.mpr ⟨⟨position, .single .nonZero none, group⟩, ?_, rfl⟩
      rw [← List.mem_reverse, h]
      exact List.mem_cons_self
    rw [hlayout] at hmem
    have heq := List.eq_of_mem_replicate hmem
    rw [Piece.single.injEq] at heq
    exact absurd heq.1.symm hc

/-- A character repeated is cut into single characters. -/
theorem cuts_replicate (n : Nat) (c : Char) :
    Cuts (List.replicate n (.single (.literal c) none)) (List.replicate n [c])
      (List.replicate n c) := by
  have hone : Piece.Admits (.single (.literal c) none) [c] := by
    refine ⟨⟨le_rfl, fun high hhigh => ?_⟩, fun d hd => List.mem_singleton.mp hd⟩
    rw [← Option.some.inj hhigh, List.length_singleton]
  induction n with
  | zero => exact ⟨.nil, rfl⟩
  | succ n ih =>
    refine ⟨.cons hone ih.admitted, ?_⟩
    rw [List.replicate_succ, List.flatten_cons, ih.covered]
    rfl

end CallRouting.Pattern

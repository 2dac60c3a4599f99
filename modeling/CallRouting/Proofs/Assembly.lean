import CallRouting.Proofs.Shape

/-!
# Shapes are put together phrase by phrase

A phrase has a shape of its own (`Phrase.shape`), wherever it stands, and only the last phrase
depends on its place: an unquantified `Z` takes all that is left there (`Phrase.lastShape`). So the
shape of a pattern is read off its phrases (`shape_ofPhrases_concat`), and phrases put in front of a
pattern leave it as it is (`shape_ofPhrases_append`).

The same is said of the rest, which a pattern has if its text ends in `Z`
(`hasRest_iff_getLast?_source`), and of the count of quantifiers (`quantified_ofPhrases`), which
depends on the text alone (`Admissible.of_textOf_eq`).
-/

namespace CallRouting.Pattern

/-! ## The shape of phrases -/

/-- The characters of an alternative besides parentheses. -/
def bare (a : List Char) : List Char := a.filter fun c => c ≠ '(' ∧ c ≠ ')'

namespace Phrase

/-- The piece that a phrase stands for, without positions. -/
def shape : Phrase → Piece
  | plain c quantifier => .single (.ofToken c) quantifier
  | group alternatives =>
    .choice (alternatives.map fun a => (bare a).map fun c => ⟨0, .ofToken c⟩)

/-- The piece that a phrase stands for if it comes last. -/
def lastShape (u : Phrase) : Piece :=
  if u.shape = .single .nonZero none then .rest else u.shape

/-- The classes of an alternative are those of its characters besides parentheses. -/
theorem map_unplaced_slotsAt (n : Nat) (a : List Char) :
    (slotsAt n a).map Slot.unplaced = (bare a).map fun c => ⟨0, .ofToken c⟩ := by
  induction a generalizing n with
  | nil => rfl
  | cons c rest ih =>
    by_cases h : c = '(' ∨ c = ')'
    · rw [slotsAt, if_pos h, ih, bare, bare, List.filter_cons_of_neg]
      simpa [or_iff_not_imp_left] using h
    · rw [slotsAt, if_neg h, List.map_cons, ih, bare, bare, List.filter_cons_of_pos]
      · rfl
      · simpa [not_or] using h

/-- Wherever a phrase stands, it has the same shape. -/
@[simp] theorem unplaced_piece (n : Nat) (u : Phrase) : (u.piece n).unplaced = u.shape := by
  cases u with
  | plain c quantifier => rfl
  | group alternatives =>
    have key : ∀ n, (alternativesAt n alternatives).map (·.map Slot.unplaced) =
        alternatives.map fun a => (bare a).map fun c => ⟨0, .ofToken c⟩ := by
      induction alternatives with
      | nil => exact fun n => rfl
      | cons a rest ih =>
        intro n
        rw [alternativesAt, List.map_cons, List.map_cons, map_unplaced_slotsAt, ih]
    exact congrArg Piece.choice (key (n + 1))

/-- No phrase has the shape of the piece that takes all that is left. -/
theorem shape_ne_rest (u : Phrase) : u.shape ≠ .rest := by
  cases u <;> exact Piece.noConfusion

/-- Only a phrase that is a digit from 1 to 9 changes in the last place. -/
theorem lastShape_eq_rest_iff {u : Phrase} :
    u.lastShape = .rest ↔ u.shape = .single .nonZero none := by
  unfold lastShape
  by_cases h : u.shape = .single .nonZero none
  · simp [h]
  · simp [h, u.shape_ne_rest]

/-- A quantifier stays in the last place. -/
theorem quantifier?_lastShape (u : Phrase) :
    u.lastShape.quantifier?.isSome = u.isQuantified := by
  have hshape : u.shape.quantifier?.isSome = u.isQuantified := by
    cases u <;> rfl
  unfold lastShape
  by_cases h : u.shape = .single .nonZero none
  · rw [if_pos h, ← hshape, h]
    rfl
  · rw [if_neg h, hshape]

/-- A phrase is written with a `Z` at the end exactly if it is a digit from 1 to 9 without a
quantifier. -/
theorem getLast?_text_eq_iff {u : Phrase} :
    u.text.getLast? = some 'Z' ↔ u.shape = .single .nonZero none := by
  cases u with
  | plain c quantifier =>
    cases quantifier with
    | none =>
      have htoken : CharClass.ofToken c = .nonZero ↔ c = 'Z' := by
        constructor
        · intro h
          rw [← CharClass.token_ofToken c, h]
          rfl
        · rintro rfl
          rfl
      simp [text, shape, htoken]
    | some q => cases q <;> simp [text, shape, Quantifier.token]
  | group alternatives =>
    rw [text, ← List.cons_append, List.getLast?_concat]
    simp [shape]

end Phrase

/-- Without positions, the atoms of a layout are the phrases. -/
theorem map_unplaced_layout (n : Nat) (us : List Phrase) :
    (layout n us).map (fun a => a.piece.unplaced) = us.map Phrase.shape := by
  induction us generalizing n with
  | nil => rfl
  | cons u us ih =>
    rw [layout, List.map_cons, ih, List.map_cons, Phrase.atom, Phrase.unplaced_piece]

/-- What the marking of the last atom does to it. -/
theorem markRest_cons (a : Atom) (before : List Atom) :
    markRest (a :: before) =
      (if a.piece = .single .nonZero none then { a with piece := .rest } else a) :: before := by
  obtain ⟨position, piece, group⟩ := a
  by_cases h : piece = .single .nonZero none
  · subst h
    rfl
  · rw [if_neg h]
    rcases markRest_cases (⟨position, piece, group⟩ :: before) with
      heq | ⟨position', group', before', heq, -⟩
    · exact heq
    · cases heq
      exact absurd rfl h

/-- **The shape of a pattern**, phrase by phrase. -/
theorem shape_ofPhrases_concat (source : String) (us : List Phrase) (u : Phrase) :
    (ofPhrases source (us ++ [u])).shape = us.map Phrase.shape ++ [u.lastShape] := by
  have hlast : (layout 0 (us ++ [u])).reverse =
      u.atom (textOf us).length :: (layout 0 us).reverse := by
    simp [layout_append, layout]
  have hpiece : u.piece (textOf us).length = .single .nonZero none ↔
      u.shape = .single .nonZero none := by
    cases u <;> simp [Phrase.piece, Phrase.shape]
  rw [shape, pieces_ofPhrases, atomsOf, hlast, markRest_cons, List.reverse_cons,
    List.reverse_reverse, List.map_append, List.map_append, List.map_map]
  refine congrArg₂ (· ++ ·) (map_unplaced_layout 0 us) ?_
  rw [Phrase.lastShape, Phrase.atom]
  by_cases h : u.shape = .single .nonZero none
  · simp [hpiece, h, Piece.unplaced]
  · simp [hpiece, h]

/-- **Phrases in front of a pattern keep their shape**, and the pattern keeps its own. -/
theorem shape_ofPhrases_append (source right : String) (us : List Phrase) {vs : List Phrase}
    (hvs : vs ≠ []) :
    (ofPhrases source (us ++ vs)).shape = us.map Phrase.shape ++ (ofPhrases right vs).shape := by
  obtain ⟨vs, v, rfl⟩ : ∃ ws v, vs = ws ++ [v] :=
    ⟨_, _, (List.dropLast_append_getLast hvs).symm⟩
  rw [← List.append_assoc, shape_ofPhrases_concat, shape_ofPhrases_concat, List.map_append,
    List.append_assoc]

/-- A pattern has a rest exactly if its shape ends in the piece that takes it. -/
theorem hasRest_iff_getLast?_shape {p : Pattern} :
    p.hasRest = true ↔ p.shape.getLast? = some .rest := by
  rw [hasRest, shape, pieces, List.map_map, List.getLast?_map]
  cases p.atoms.getLast? <;> simp

/-- Without a rest every phrase has its own shape. -/
theorem shape_ofPhrases_of_hasRest {source : String} {us : List Phrase}
    (h : (ofPhrases source us).hasRest = false) :
    (ofPhrases source us).shape = us.map Phrase.shape := by
  rcases List.eq_nil_or_concat us with rfl | ⟨us, u, rfl⟩
  · rfl
  rw [List.concat_eq_append] at h ⊢
  have hshape := shape_ofPhrases_concat source us u
  have hrest : u.shape ≠ .single .nonZero none := by
    rw [ne_eq, ← Phrase.lastShape_eq_rest_iff]
    intro hlast
    rw [Bool.eq_false_iff, ne_eq, hasRest_iff_getLast?_shape, hshape, List.getLast?_concat,
      hlast] at h
    exact h rfl
  rw [hshape, Phrase.lastShape, if_neg hrest, List.map_append]
  rfl

/-- **A pattern has a rest exactly if its text ends in `Z`.** -/
theorem hasRest_iff_getLast?_source {limits : PatternLimits} {source : String} {p : Pattern}
    (h : parse limits source = .ok p) :
    p.hasRest = true ↔ source.toList.getLast? = some 'Z' := by
  obtain ⟨-, us, hne, -, htext, rfl⟩ := parse_eq_ok_iff.mp h
  obtain ⟨us, u, rfl⟩ : ∃ ws u, us = ws ++ [u] :=
    ⟨_, _, (List.dropLast_append_getLast hne).symm⟩
  rw [hasRest_iff_getLast?_shape, shape_ofPhrases_concat, List.getLast?_concat, Option.some.injEq,
    Phrase.lastShape_eq_rest_iff, ← Phrase.getLast?_text_eq_iff, ← htext, textOf_append,
    textOf_cons, textOf_nil, List.append_nil, List.getLast?_append_of_ne_nil _ u.text_ne_nil]

/-! ## Quantifiers -/

/-- How many atoms of a pattern have a quantifier. -/
def quantified (p : Pattern) : Nat := p.atoms.countP (·.piece.quantifier?.isSome)

/-- The atoms with a quantifier are the phrases with a quantifier. -/
theorem quantified_ofPhrases (source : String) (us : List Phrase) :
    (ofPhrases source us).quantified = quantifiedCount us := by
  have hshape : ∀ p : Pattern, p.quantified = p.shape.countP (·.quantifier?.isSome) := by
    intro p
    rw [quantified, shape, pieces, List.map_map, List.countP_map]
    simp [Function.comp_def]
  rw [hshape]
  rcases List.eq_nil_or_concat us with rfl | ⟨us, u, rfl⟩
  · rfl
  have hphrases : (us.map Phrase.shape).countP (·.quantifier?.isSome) = quantifiedCount us := by
    rw [List.countP_map]
    refine List.countP_congr fun v _ => ?_
    cases v <;> exact Iff.rfl
  rw [List.concat_eq_append, shape_ofPhrases_concat, List.countP_append, hphrases,
    quantifiedCount_append, List.countP_singleton, Phrase.quantifier?_lastShape,
    quantifiedCount, quantifiedCount, List.countP_singleton]

/-- The count of quantifiers depends on the text only. -/
theorem quantifiedCount_eq_of_textOf_eq {us vs : List Phrase} (hus : ∀ u ∈ us, u.WellFormed)
    (hvs : ∀ v ∈ vs, v.WellFormed) (h : textOf us = textOf vs) :
    quantifiedCount us = quantifiedCount vs := by
  -- the reader comes to one state behind both, if the limit leaves room for both
  let m : Int := max (quantifiedCount us : Int) (quantifiedCount vs)
  have hus' : Admissible m us := ⟨hus, Or.inr (le_max_left ..)⟩
  have hvs' : Admissible m vs := ⟨hvs, Or.inr (le_max_right ..)⟩
  have hrun := run_textOf hus'
  rw [h, run_textOf hvs'] at hrun
  exact congrArg Progress.quantified (Except.ok.inj hrun).symm

/-- Whether phrases pass depends on their text only, if they are well formed. -/
theorem Admissible.of_textOf_eq {m : Int} {us vs : List Phrase} (h : Admissible m us)
    (hvs : ∀ v ∈ vs, v.WellFormed) (htext : textOf us = textOf vs) : Admissible m vs := by
  refine ⟨hvs, ?_⟩
  rw [← quantifiedCount_eq_of_textOf_eq h.wellFormed hvs htext]
  exact h.within

end CallRouting.Pattern

import CallRouting.Exchange
import CallRouting.Proofs.Compiled
import CallRouting.Proofs.Memory

/-!
# Fitting is exact

A text fits a pattern exactly if it can be cut into segments that the atoms admit, and then it is
cut the way that is wanted most.

* **The answer** (`fits_iff`): the search finds a fit exactly if there is a cut.
* **Depth** (`tooDeep_iff`): there is no room for a search exactly if the pattern has more atoms
  than there is room for and the beginning of the text can be cut among those that there is room
  for. This is the one failure of a search (`fitTo_exact`).
* **The segments** (`segments_first`): they are those of the first division, and the spans of the
  journal are theirs and no others.
-/

namespace CallRouting.Pattern

open Exchange (fitTo)

/-! ## Cuts -/

/-- The plain search finds something exactly if there is a cut. -/
theorem search_isSome_iff {ps : List Piece} (hlast : RestLast ps) (cs : List Char) :
    (search ps cs).isSome = true ↔ ∃ segments, Cuts ps segments cs := by
  rw [exists_cuts_iff]
  rcases search_cases hlast cs with ⟨hnone, hno⟩ | ⟨shares, hfirst, hsome⟩
  · rw [hnone]
    constructor
    · intro h
      cases h
    · rintro ⟨shares, h⟩
      exact absurd h (hno shares)
  · rw [hsome]
    exact ⟨fun _ => ⟨shares, hfirst.divides⟩, fun _ => rfl⟩

/-- A text can be cut with a piece at the end that takes all that is left exactly if a beginning of
it can be cut without that piece. -/
theorem exists_cuts_concat_rest_iff {ps : List Piece} {cs : List Char} :
    (∃ segments, Cuts (ps ++ [.rest]) segments cs) ↔
      ∃ before segments, before <+: cs ∧ Cuts ps segments before := by
  constructor
  · rintro ⟨segments, hadm, rfl⟩
    have htake := List.forall₂_take ps.length hadm
    rw [List.take_left] at htake
    refine ⟨_, segments.take ps.length, ?_, htake, rfl⟩
    refine ⟨(segments.drop ps.length).flatten, ?_⟩
    rw [← List.flatten_append, List.take_append_drop]
  · rintro ⟨before, segments, ⟨left, rfl⟩, hadm, rfl⟩
    refine ⟨segments ++ [left], ?_, by simp⟩
    exact List.rel_append hadm (.cons trivial .nil)

/-! ## Depth -/

variable {limits : PatternLimits} {source text : String} {p : Pattern}

/-- With the atoms that there is room for cut off, the piece that takes all that is left may be put
behind them. -/
theorem restLast_concat_of_lt (h : RestLast p.pieces) {n : Nat} (hn : n < p.atoms.length) :
    RestLast (p.pieces.take n ++ [.rest]) := by
  rw [RestLast, List.dropLast_concat]
  intro hmem
  apply h
  rw [List.dropLast_eq_take, length_pieces]
  exact List.take_subset_take_left _ (by omega) hmem

/-- **When there is no room for a search**: the pattern has more atoms than there is room for, and a
beginning of the text can be cut among the atoms that there is room for. -/
theorem tooDeep_iff (h : RestLast p.pieces) (room : Nat) (text : String) :
    p.tooDeep room text = true ↔
      room < p.atoms.length ∧
        ∃ before segments, before <+: text.toList ∧
          Cuts (p.pieces.take room) segments before := by
  unfold tooDeep
  rw [Bool.and_eq_true, decide_eq_true_eq]
  refine and_congr_right fun hlt => ?_
  have hstart : (p.atoms.take room).map (·.piece) = p.pieces.take room :=
    (List.map_take ..)
  have hagrees := searchFrom_start_agrees (p.pieces.take room ++ [.rest]) text.toList
  rw [hstart, hagrees.answer, ← exists_cuts_concat_rest_iff]
  exact search_isSome_iff (restLast_concat_of_lt h hlt) text.toList

/-- A text that can be cut among all atoms can be cut at the beginning among the first of them. -/
theorem exists_cuts_take {ps : List Piece} {cs : List Char} (h : ∃ segments, Cuts ps segments cs)
    (n : Nat) :
    ∃ before segments, before <+: cs ∧ Cuts (ps.take n) segments before := by
  obtain ⟨segments, hadm, rfl⟩ := h
  refine ⟨_, segments.take n, ?_, List.forall₂_take n hadm, rfl⟩
  refine ⟨(segments.drop n).flatten, ?_⟩
  rw [← List.flatten_append, List.take_append_drop]

/-- There is no room for fitting a digit repeated too often to itself, although there is a cut. -/
theorem fitTo_replicate {c : Char} {n room : Nat} (hc : c ∉ reserved)
    (hliteral : CharClass.ofToken c = .literal c) (hn : room < n)
    (hlen : (n : Int) ≤ limits.maxLength) :
    ∃ p, parse limits (String.ofList (List.replicate n c)) = .ok p ∧
      (∃ segments, Cuts p.pieces segments (String.ofList (List.replicate n c)).toList) ∧
      fitTo p (String.ofList (List.replicate n c)) room = .error .tooDeep := by
  have hparse := parse_replicate hc (Nat.ne_zero_of_lt hn) hlen
  have hlong := length_atoms_ofPhrases (String.ofList (List.replicate n c))
    (List.replicate n (.plain c none))
  have hpieces := pieces_replicate (String.ofList (List.replicate n c)) n
    (fun h => by rw [hliteral] at h; cases h)
  generalize ofPhrases _ _ = p at hparse hlong hpieces
  rw [hliteral] at hpieces
  rw [List.length_replicate] at hlong
  have hcut : ∃ segments, Cuts p.pieces segments (String.ofList (List.replicate n c)).toList := by
    rw [hpieces, String.toList_ofList]
    exact ⟨_, cuts_replicate n c⟩
  refine ⟨p, hparse, hcut, ?_⟩
  rw [fitTo, if_pos]
  refine (tooDeep_iff (restLast_of_parse hparse) room _).mpr ⟨?_, exists_cuts_take hcut _⟩
  rw [hlong]
  exact hn

/-! ## The answer -/

/-- The search finds a fit exactly if there is a cut. -/
theorem fits_iff (h : RestLast p.pieces) (text : String) :
    p.fits text = true ↔ ∃ segments, Cuts p.pieces segments text.toList := by
  rw [← search_isSome_iff h, fits, fit?_eq, Option.isSome_map]
  rfl

/-- **A search is exact.** It answers with a fit exactly if the text can be cut among the atoms, and
it fails for lack of room only: if the pattern has more atoms than there is room for and they can
take the beginning of the text. With a limit of lengths that keeps within the room it never
fails. This holds whatever room the caller leaves. -/
theorem fitTo_exact (h : parse limits source = .ok p) (text : String) (room : Nat) :
    (p.fits text = true ↔ ∃ segments, Cuts p.pieces segments text.toList) ∧
      (∀ answer, fitTo p text room = .ok answer →
        (answer.isSome = true ↔ ∃ segments, Cuts p.pieces segments text.toList)) ∧
      (∀ e, fitTo p text room = .error e →
        e = .tooDeep ∧ room < p.atoms.length ∧
          ∃ before segments, before <+: text.toList ∧
            Cuts (p.pieces.take room) segments before) ∧
      (limits.maxLength ≤ room → ∃ answer, fitTo p text room = .ok answer) := by
  have hlast := restLast_of_parse h
  have hfits := fits_iff hlast text
  refine ⟨hfits, fun answer hanswer => ?_, fun e he => ?_, fun hroom => ?_⟩
  · unfold fitTo at hanswer
    split_ifs at hanswer with hdeep
    rw [← Except.ok.inj hanswer]
    exact hfits
  · unfold fitTo at he
    split_ifs at he with hdeep
    exact ⟨(Except.error.inj he).symm, (tooDeep_iff hlast room text).mp hdeep⟩
  · have hlen := length_atoms_le_of_parse h
    exact ⟨_, Exchange.fitTo_eq_ok (by omega) text⟩

/-- The pattern `X?[1|12]Z`. -/
def optionalThenGroup : Pattern :=
  ⟨"X?[1|12]Z",
    [⟨0, .single .anyDigit (some .optional), some 0⟩,
      ⟨2, .choice [[⟨3, .literal '1'⟩], [⟨5, .literal '1'⟩, ⟨6, .literal '2'⟩]], none⟩,
      ⟨8, .rest, none⟩], 1⟩

/-- The pattern is read from its source. -/
theorem parse_optionalThenGroup : parse ({} : Settings).limits "X?[1|12]Z" = .ok optionalThenGroup := rfl

/-- A quantifier that takes nothing and an alternative that comes second. -/
theorem fitTo_exact_group :
    parse ({} : Settings).limits "X?[1|12]Z" = .ok optionalThenGroup ∧
      optionalThenGroup.fits "123" = true := by
  have hnone : Piece.Admits (.single .anyDigit (some .optional)) [] :=
    ⟨⟨le_rfl, fun _ _ => Nat.zero_le _⟩, fun c hc => by cases hc⟩
  have hsecond : Piece.Admits
      (.choice [[⟨3, .literal '1'⟩], [⟨5, .literal '1'⟩, ⟨6, .literal '2'⟩]]) ['1', '2'] :=
    ⟨[⟨5, .literal '1'⟩, ⟨6, .literal '2'⟩], by decide, .cons rfl (.cons rfl .nil)⟩
  exact ⟨parse_optionalThenGroup, (fitTo_exact parse_optionalThenGroup "123" 0).1.mpr
    ⟨[[], ['1', '2'], ['3']], .cons hnone (.cons hsecond (.cons trivial .nil)), rfl⟩⟩

/-- A pattern of three thousand digits that fits itself, and no room for the search. -/
theorem fitTo_exact_tooDeep :
    ∃ p, parse ({ maxPatternLength := 10000 } : Settings).limits
        (String.ofList (List.replicate 3000 '1')) = .ok p ∧
      (∃ segments, Cuts p.pieces segments (String.ofList (List.replicate 3000 '1')).toList) ∧
      ¬ ∃ answer, fitTo p (String.ofList (List.replicate 3000 '1'))
        ({ maxPatternLength := 10000 } : Settings).limits.room = .ok answer := by
  have hlen : (3000 : Int) ≤ ({ maxPatternLength := 10000 } : Settings).limits.maxLength := by
    decide
  have hroom : ({ maxPatternLength := 10000 } : Settings).limits.room < 3000 := by decide
  obtain ⟨p, hparse, hcut, hdeep⟩ :=
    fitTo_replicate (c := '1') (n := 3000) (by decide) (by decide) hroom hlen
  refine ⟨p, hparse, hcut, ?_⟩
  rintro ⟨answer, hanswer⟩
  rw [hdeep] at hanswer
  cases hanswer

/-! ## The segments -/

/-- Spans that follow one another cut a text into what the shares of a division take. -/
theorem map_segment_spansFrom {cs : List Char} {n : Nat} {shares : List Share}
    (h : (shares.map Share.taken).flatten = cs.drop n) :
    (spansFrom n (shares.map fun share => share.taken.length)).map (segment cs) =
      shares.map fun share => String.ofList share.taken := by
  induction shares generalizing n with
  | nil => rfl
  | cons share shares ih =>
    rw [List.map_cons, List.flatten_cons] at h
    have hslice : Span.slice ⟨n, n + share.taken.length⟩ cs = share.taken := by
      rw [Span.slice, ← h, Nat.add_sub_cancel_left, List.take_left]
    have hrest : (shares.map Share.taken).flatten = cs.drop (n + share.taken.length) := by
      rw [← List.drop_drop, ← h, List.drop_left]
    rw [List.map_cons, spansFrom, List.map_cons, ih hrest, List.map_cons, segment, hslice]

/-- No span is missing where spans follow one another. -/
theorem isSome_of_mem_spansFrom {n : Nat} {counts : List Nat} {span : Option Span}
    (h : span ∈ spansFrom n counts) : span.isSome = true := by
  induction counts generalizing n with
  | nil => cases h
  | cons count counts ih =>
    rcases List.mem_cons.mp h with rfl | h
    · rfl
    · exact ih h

/-- What a fit is, in terms of the first division. -/
theorem fit?_eq_some_iff (h : RestLast p.pieces) {f : Fit} :
    p.fit? text = some f ↔
      ∃ shares, IsFirst p.pieces shares text.toList ∧
        f = p.fitOf (shares.map fun share => String.ofList share.taken) := by
  rw [fit?_eq, Option.map_eq_some_iff]
  change (∃ counts, search p.pieces text.toList = some counts ∧ _) ↔ _
  constructor
  · rintro ⟨counts, hcounts, rfl⟩
    rcases search_cases h text.toList with ⟨hnone, -⟩ | ⟨shares, hfirst, hsome⟩
    · rw [hnone] at hcounts
      cases hcounts
    · rw [hsome] at hcounts
      obtain rfl := Option.some.inj hcounts
      exact ⟨shares, hfirst, by rw [map_segment_spansFrom hfirst.divides.covered]⟩
  · rintro ⟨shares, hfirst, rfl⟩
    rcases search_cases h text.toList with ⟨-, hno⟩ | ⟨others, hfirst', hsome⟩
    · exact absurd hfirst.divides (hno shares)
    · obtain rfl := hfirst.unique h hfirst'
      exact ⟨_, hsome, by rw [map_segment_spansFrom hfirst.divides.covered]⟩

/-- **A fit is the one that is wanted most.** There is one segment for each atom, and together they
are the text; they are what the first of all divisions gives out, and the journal of the search has
the spans of that division and no others. -/
theorem segments_first (h : parse limits source = .ok p) {f : Fit} (hf : p.fit? text = some f) :
    ∃ shares, IsFirst p.pieces shares text.toList ∧
      f.segments = (shares.map fun share => String.ofList share.taken) ∧
      f.segments.length = p.atoms.length ∧
      String.join f.segments = text ∧
      List.Forall₂ Piece.Admits p.pieces (f.segments.map String.toList) ∧
      (p.trace text).2.spans = spansFrom 0 (shares.map fun share => share.taken.length) ∧
      ∀ span ∈ (p.trace text).2.spans, span.isSome = true := by
  have hlast := restLast_of_parse h
  obtain ⟨shares, hfirst, rfl⟩ := (fit?_eq_some_iff hlast).mp hf
  have hspans : (p.trace text).2.spans =
      spansFrom 0 (shares.map fun share => share.taken.length) := by
    rcases search_cases hlast text.toList with ⟨-, hno⟩ | ⟨others, hfirst', hsome⟩
    · exact absurd hfirst.divides (hno shares)
    · obtain rfl := hfirst.unique hlast hfirst'
      exact (p.trace_agrees text).written _ hsome
  have hsegments : (p.fitOf (shares.map fun share => String.ofList share.taken)).segments.map
      String.toList = shares.map Share.taken := by
    simp [fitOf]
  refine ⟨shares, hfirst, rfl, ?_, ?_, ?_, hspans, ?_⟩
  · rw [← List.length_map String.toList, hsegments, List.length_map,
      ← hfirst.divides.chosen.length_eq, length_pieces]
  · rw [← String.toList_inj, String.toList_join, List.flatMap_def, hsegments]
    exact hfirst.divides.covered
  · rw [hsegments, List.forall₂_map_right_iff]
    exact hfirst.divides.chosen.imp fun _ _ hch => Piece.admits_iff.mpr ⟨_, hch⟩
  · rw [hspans]
    exact fun span => isSome_of_mem_spansFrom

/-- The quantifier takes a digit that the group could do without. -/
theorem segments_first_group :
    ∃ f, parse ({} : Settings).limits "X?[1|12]Z" = .ok optionalThenGroup ∧
      optionalThenGroup.fit? "1123" = some f ∧ String.join f.segments = "1123" := by
  have hfit : optionalThenGroup.fit? "1123" = some ⟨["1"], some "23", ["1", "1", "23"]⟩ := by
    rw [fit?_eq]
    rfl
  obtain ⟨_, _, _, _, hjoin, _⟩ := segments_first parse_optionalThenGroup hfit
  exact ⟨_, parse_optionalThenGroup, hfit, hjoin⟩

end CallRouting.Pattern

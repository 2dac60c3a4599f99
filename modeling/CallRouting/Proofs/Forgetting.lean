import CallRouting.Proofs.Fitting

/-!
# What a search remembers does not change it

`searchFrom` notes the places from which it failed, and gives up at once when it comes to one of
them again. Here it is held against the same search without that memory.

* **Without memory** (`searchAnew`): the search neither asks which places failed nor notes them. It
  finds what the plain search finds (`searchAnew_fst`) and writes the spans of the plain answer
  (`searchAnew_writes`).
* **What is remembered** (`Journal.Truthful`): from none of the failed places can the atoms take
  what is left of the text. This is the invariant in terms of cuts (`Journal.truthful_iff_sound`).
* **Answers without an invariant** (`search_isSome_of_searchFrom`): whatever is remembered, a search
  that succeeds is right to.
* **Together** (`searchFrom_eq_searchAnew`).
-/

namespace CallRouting.Pattern

/-! ## The search without memory -/

/-- Tries ways to take from a place one after the other, and forgets when all of them failed. -/
def tryTakesAnew (go : Take → List (Option Span) → Bool × List (Option Span)) (place : Place) :
    List Take → List (Option Span) → Bool × List (Option Span)
  | [], spans => (false, spans)
  | t :: rest, spans =>
    match go t (spans.set place.1 (some ⟨place.2, place.2 + t.count⟩)) with
    | (true, spans) => (true, spans)
    | (false, spans) => tryTakesAnew go place rest spans

/-- The search from a place that opens every place anew. -/
def searchAnew : List Piece → Place → List Char → List (Option Span) →
    Bool × List (Option Span)
  | [], _, cs, spans => (cs.isEmpty, spans)
  | piece :: rest, place, cs, spans =>
    let go (t : Take) := searchAnew rest (place.1 + 1, place.2 + t.count) t.left
    tryTakesAnew go place (piece.takes cs) spans

/-- One of the ways to take leads on, or none. -/
theorem tryTakesAnew_fst {go : Take → List (Option Span) → Bool × List (Option Span)}
    {place : Place} {rest : List Piece} {ts : List Take} {spans : List (Option Span)}
    (hgo : ∀ t ∈ ts, ∀ spans, (go t spans).1 = (search rest t.left).isSome) :
    (tryTakesAnew go place ts spans).1 =
      (ts.findSome? fun t => (search rest t.left).map (t.count :: ·)).isSome := by
  induction ts generalizing spans with
  | nil => rfl
  | cons t ts ih =>
    have hfirst := hgo t List.mem_cons_self (spans.set place.1 (some ⟨place.2, place.2 + t.count⟩))
    rw [tryTakesAnew, List.findSome?_cons]
    generalize go t _ = result at hfirst
    obtain ⟨found, after⟩ := result
    cases hplain : search rest t.left with
    | some counts =>
      rw [hplain] at hfirst
      obtain rfl : found = true := hfirst
      rfl
    | none =>
      rw [hplain] at hfirst
      obtain rfl : found = false := hfirst
      exact ih fun t' ht' => hgo t' (List.mem_cons_of_mem _ ht')

/-- **The search without memory finds what the plain search finds**, whatever is written. -/
theorem searchAnew_fst (ps : List Piece) (place : Place) (cs : List Char)
    (spans : List (Option Span)) :
    (searchAnew ps place cs spans).1 = (search ps cs).isSome := by
  induction ps generalizing place cs spans with
  | nil => cases cs <;> rfl
  | cons piece rest ih => exact tryTakesAnew_fst fun t _ spans => ih _ _ spans

/-- What the ways to take from a place, tried one after the other, write. -/
theorem tryTakesAnew_writes {go : Take → List (Option Span) → Bool × List (Option Span)}
    {place : Place} {rest : List Piece} {ts : List Take} {spans : List (Option Span)} {atoms : Nat}
    (hplace : place.1 < atoms)
    (hgo : ∀ t ∈ ts, ∀ spans : List (Option Span), spans.length = atoms →
      Writes (place.1 + 1, place.2 + t.count) spans (search rest t.left) (go t spans).1
        (go t spans).2)
    (hlen : spans.length = atoms) :
    Writes place spans (ts.findSome? fun t => (search rest t.left).map (t.count :: ·))
      (tryTakesAnew go place ts spans).1 (tryTakesAnew go place ts spans).2 := by
  induction ts generalizing spans with
  | nil => exact ⟨rfl, rfl, fun i _ => rfl, fun counts h => by cases h⟩
  | cons t ts ih =>
    have hset : (spans.set place.1 (some ⟨place.2, place.2 + t.count⟩)).length = atoms := by
      rw [List.length_set, hlen]
    have hfirst := hgo t List.mem_cons_self _ hset
    rw [tryTakesAnew, List.findSome?_cons]
    generalize go t _ = result at hfirst
    obtain ⟨found, after⟩ := result
    cases hplain : search rest t.left with
    | some counts =>
      rw [hplain] at hfirst
      obtain rfl : found = true := hfirst.answer
      exact hfirst.first (by rw [hlen]; exact hplace)
    | none =>
      rw [hplain] at hfirst
      obtain rfl : found = false := hfirst.answer
      have hafter : after.length = atoms := by rw [hfirst.length, hset]
      exact hfirst.again (ih (fun t' ht' => hgo t' (List.mem_cons_of_mem _ ht')) hafter)

/-- **The search without memory writes the spans of the plain answer.** -/
theorem searchAnew_writes {ps : List Piece} {place : Place} {cs : List Char}
    {spans : List (Option Span)} (hlen : spans.length = place.1 + ps.length) :
    Writes place spans (search ps cs) (searchAnew ps place cs spans).1
      (searchAnew ps place cs spans).2 := by
  induction ps generalizing place cs spans with
  | nil =>
    refine ⟨searchAnew_fst [] place cs spans, rfl, fun i _ => rfl, fun counts h => ?_⟩
    rw [search] at h
    split_ifs at h
    cases h
    exact List.drop_eq_nil_of_le hlen.le
  | cons piece rest ih =>
    rw [List.length_cons] at hlen
    refine tryTakesAnew_writes (by omega) (fun t _ spans hspans => ?_) hlen
    have hnext : spans.length = ((place.1 + 1, place.2 + t.count) : Place).1 + rest.length := by
      change spans.length = place.1 + 1 + rest.length
      omega
    exact ih hnext

/-! ## What is remembered -/

variable {pieces : List Piece} {text : List Char} {j : Journal}

/-- Whether the atoms from a failed place on cannot take exactly what is left of the text, for every
place that a journal has as failed. -/
def Journal.Truthful (pieces : List Piece) (text : List Char) (j : Journal) : Prop :=
  ∀ place ∈ j.failed, ¬ ∃ segments, Cuts (pieces.drop place.1) segments (text.drop place.2)

/-- What is remembered is true exactly if the plain search fails from every failed place. -/
theorem Journal.truthful_iff_sound (hlast : RestLast pieces) :
    j.Truthful pieces text ↔ j.Sound pieces text := by
  refine forall₂_congr fun place _ => ?_
  have hend : RestLast (pieces.drop place.1) := by
    rw [← List.take_append_drop place.1 pieces] at hlast
    exact hlast.of_append
  rw [← search_isSome_iff hend, Bool.not_eq_true, Option.isSome_eq_false_iff,
    Option.isNone_iff_eq_none]

/-! ## Answers without an invariant -/

/-- If one way to take after the other leads on, then the search that follows one of them. -/
theorem exists_of_tryTakes {go : Take → Journal → Bool × Journal} {place : Place} {ts : List Take}
    (h : (tryTakes go place ts j).1 = true) : ∃ t ∈ ts, ∃ before, (go t before).1 = true := by
  induction ts generalizing j with
  | nil => cases h
  | cons t ts ih =>
    rw [tryTakes] at h
    cases hfound : (go t (j.record place t.count)).1 with
    | true => exact ⟨t, List.mem_cons_self, _, hfound⟩
    | false =>
      generalize go t (j.record place t.count) = result at h hfound
      obtain ⟨found, after⟩ := result
      obtain rfl : found = false := hfound
      obtain ⟨t', ht', before, hbefore⟩ := ih h
      exact ⟨t', List.mem_cons_of_mem _ ht', before, hbefore⟩

/-- **A search that succeeds is right to**, whatever its journal holds. -/
theorem search_isSome_of_searchFrom {ps : List Piece} {place : Place} {cs : List Char}
    (h : (searchFrom ps place cs j).1 = true) : (search ps cs).isSome = true := by
  induction ps generalizing place cs j with
  | nil =>
    have hempty : cs.isEmpty = true := h
    rw [search, if_pos hempty]
    rfl
  | cons piece rest ih =>
    rw [searchFrom] at h
    split_ifs at h with hfailed
    obtain ⟨t, ht, before, hfound⟩ := exists_of_tryTakes h
    rw [search, List.findSome?_isSome_iff]
    exact ⟨t, ht, by rw [Option.isSome_map]; exact ih hfound⟩

/-! ## Together -/

variable {limits : PatternLimits} {source : String} {p : Pattern}

/-- There is no room for a search exactly if there is none for the search without memory. -/
theorem tooDeep_eq_searchAnew (p : Pattern) (room : Nat) (text : String)
    (spans : List (Option Span)) :
    p.tooDeep room text = (decide (room < p.atoms.length) &&
      (searchAnew (p.pieces.take room ++ [.rest]) (0, 0) text.toList spans).1) := by
  have hstart : (p.atoms.take room).map (·.piece) = p.pieces.take room :=
    (List.map_take ..)
  have hagrees := searchFrom_start_agrees (p.pieces.take room ++ [.rest]) text.toList
  rw [tooDeep, hstart, hagrees.answer, searchAnew_fst]

/-- **What a search remembers does not change it.** A pattern was read, and a search of it starts at
any place, with a journal that has nothing as failed that could succeed, and any spans.

It answers what the search without memory answers, and after a success the spans from the place on
are those that the search without memory writes. It leaves the spans before the place as they are,
and what it remembers at the end is true as well.

Of the depth one direction holds from any place: where it goes deeper than there is room for, so
does the search without memory. The converse fails for a journal with failed places, which keep the
search from going where the search without memory goes too deep and gives no answer. When a text is
fitted, which starts with nothing failed, the one goes too deep exactly if the other does. -/
theorem searchFrom_eq_searchAnew (h : parse limits source = .ok p) (text : String) (place : Place)
    (hplace : place.1 ≤ p.atoms.length) (hj : j.Truthful p.pieces text.toList)
    (hlen : j.spans.length = p.atoms.length) :
    let ps := p.pieces.drop place.1
    let cs := text.toList.drop place.2
    (searchFrom ps place cs j).1 = (searchAnew ps place cs j.spans).1 ∧
      ((searchFrom ps place cs j).1 = true →
        (searchFrom ps place cs j).2.spans.drop place.1 =
          (searchAnew ps place cs j.spans).2.drop place.1) ∧
      (searchFrom ps place cs j).2.spans.take place.1 = j.spans.take place.1 ∧
      (searchFrom ps place cs j).2.Truthful p.pieces text.toList ∧
      (∀ room, (searchFrom (ps.take room ++ [.rest]) place cs j).1 = true →
        (searchAnew (ps.take room ++ [.rest]) place cs j.spans).1 = true) ∧
      ∀ room, p.tooDeep room text = (decide (room < p.atoms.length) &&
        (searchAnew (p.pieces.take room ++ [.rest]) (0, 0) text.toList
          (.replicate p.atoms.length none)).1) := by
  intro ps cs
  have hlast := restLast_of_parse h
  rw [← p.length_pieces] at hplace hlen
  have hagrees : Agrees p.pieces text.toList place j (search ps cs) (searchFrom ps place cs j).1
      (searchFrom ps place cs j).2 :=
    searchFrom_agrees rfl rfl hplace ((Journal.truthful_iff_sound hlast).mp hj) hlen
  have hends : j.spans.length = place.1 + ps.length := by
    rw [hlen, List.length_drop]
    omega
  have hanew : Writes place j.spans (search ps cs) (searchAnew ps place cs j.spans).1
      (searchAnew ps place cs j.spans).2 := searchAnew_writes hends
  refine ⟨?_, fun hfound => ?_, ?_, (Journal.truthful_iff_sound hlast).mpr hagrees.sound,
    fun room hdeep => ?_, fun room => tooDeep_eq_searchAnew p room text _⟩
  · rw [hagrees.answer, hanew.answer]
  · rw [hagrees.answer] at hfound
    obtain ⟨counts, hcounts⟩ := Option.isSome_iff_exists.mp hfound
    rw [hagrees.written counts hcounts, hanew.written counts hcounts]
  · refine List.ext_getElem? fun i => ?_
    by_cases hi : i < place.1
    · rw [List.getElem?_take_of_lt hi, List.getElem?_take_of_lt hi, hagrees.below i hi]
    · rw [List.getElem?_take_eq_none (by omega), List.getElem?_take_eq_none (by omega)]
  · rw [searchAnew_fst]
    exact search_isSome_of_searchFrom hdeep

/-- The search that has the group at the second position as failed, which is where it comes first:
the quantifier gives the digit back, and the spans are written anew. -/
theorem searchFrom_eq_searchAnew_group :
    parse ({} : Settings).limits "X?[1|12]Z" = .ok optionalThenGroup ∧
      (searchFrom optionalThenGroup.pieces (0, 0) "12".toList
        ⟨{(1, 1)}, [], [none, none, none]⟩).1 = true ∧
      (searchFrom optionalThenGroup.pieces (0, 0) "12".toList
        ⟨{(1, 1)}, [], [none, none, none]⟩).2.spans =
          [some ⟨0, 0⟩, some ⟨0, 1⟩, some ⟨1, 2⟩] := by
  have hlast := restLast_of_parse parse_optionalThenGroup
  have htrue : Journal.Truthful optionalThenGroup.pieces "12".toList
      ⟨{(1, 1)}, [], [none, none, none]⟩ := by
    rw [Journal.truthful_iff_sound hlast]
    intro place hplace
    obtain rfl : (1, 1) = place := by simpa using hplace
    rfl
  obtain ⟨hanswer, hspans, -⟩ := searchFrom_eq_searchAnew parse_optionalThenGroup "12" (0, 0)
    (Nat.zero_le _) htrue rfl
  exact ⟨parse_optionalThenGroup, hanswer, hspans hanswer⟩

end CallRouting.Pattern

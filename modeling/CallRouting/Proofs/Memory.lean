import CallRouting.Proofs.Share

/-!
# The search with a journal agrees with the plain search

`searchFrom` never opens a place from which it failed before, and writes spans over the spans of
branches that it gave up. Neither changes the answer.

* **Spans** (`Writes`): what a search may write, and how the spans of an atom and of the atoms
  behind it go together, whether the search behind it succeeds or fails.
* **Invariant** (`Journal.Sound`): every failed place of the journal is one from which the plain
  search fails.
* **One search** (`Agrees`, `searchFrom_agrees`): from a sound journal, the search finds what the
  plain search finds, leaves a sound journal, touches no span before its place, and after a success
  the spans from its place on are those of the plain answer.
* **The whole search** (`fit?_eq`): fitting a text cuts it at the counts of the plain search.
-/

namespace CallRouting.Pattern

variable {pieces : List Piece} {text : List Char}

/-- The spans of atoms that take so many characters each, from a position on. -/
def spansFrom : Nat → List Nat → List (Option Span)
  | _, [] => []
  | n, count :: rest => some ⟨n, n + count⟩ :: spansFrom (n + count) rest

/-! ## Spans -/

/-- What a search from a place makes of the spans, given the answer of the plain search: it leaves
those before the place as they are, and after a success those from the place on are the ones of the
plain answer. -/
structure Writes (place : Place) (before : List (Option Span)) (plain : Option (List Nat))
    (found : Bool) (after : List (Option Span)) : Prop where
  answer : found = plain.isSome
  length : after.length = before.length
  below : ∀ i < place.1, after[i]? = before[i]?
  written : ∀ counts, plain = some counts → after.drop place.1 = spansFrom place.2 counts

namespace Writes

variable {place : Place} {count : Nat} {before between after : List (Option Span)}

/-- When the search behind an atom succeeds, the span that the atom tries is the first one. -/
theorem first {counts : List Nat} {found : Bool} (hplace : place.1 < before.length)
    (h : Writes (place.1 + 1, place.2 + count)
      (before.set place.1 (some ⟨place.2, place.2 + count⟩)) (some counts) found after) :
    Writes place before (some (count :: counts)) found after := by
  have hset : after[place.1]? = some (some ⟨place.2, place.2 + count⟩) := by
    rw [h.below place.1 (Nat.lt_succ_self _)]
    exact List.getElem?_set_self hplace
  refine ⟨h.answer, ?_, fun i hi => ?_, fun counts' heq => ?_⟩
  · rw [h.length, List.length_set]
  · rw [h.below i (Nat.lt_succ_of_lt hi)]
    exact List.getElem?_set_ne (by omega)
  · cases heq
    obtain ⟨hlt, hget⟩ := List.getElem?_eq_some_iff.mp hset
    rw [List.drop_eq_getElem_cons hlt, hget, h.written counts rfl]
    rfl

/-- When the search behind an atom fails, the next one writes over its spans. -/
theorem again {plain : Option (List Nat)} {found failed : Bool}
    (hfirst : Writes (place.1 + 1, place.2 + count)
      (before.set place.1 (some ⟨place.2, place.2 + count⟩)) none failed between)
    (hrest : Writes place between plain found after) : Writes place before plain found after := by
  refine ⟨hrest.answer, ?_, fun i hi => ?_, hrest.written⟩
  · rw [hrest.length, hfirst.length, List.length_set]
  · rw [hrest.below i hi, hfirst.below i (Nat.lt_succ_of_lt hi)]
    exact List.getElem?_set_ne (by omega)

end Writes

/-! ## The invariant -/

/-- Whether the plain search fails from every failed place of a journal. -/
def Journal.Sound (pieces : List Piece) (text : List Char) (j : Journal) : Prop :=
  ∀ place ∈ j.failed, search (pieces.drop place.1) (text.drop place.2) = none

/-- A blank journal is sound. -/
theorem Journal.sound_blank (n : Nat) : (Journal.blank n).Sound pieces text := by
  intro place h
  exact absurd h Std.HashSet.not_mem_empty

/-- A place from which the plain search fails can be noted. -/
theorem Journal.Sound.fail {j : Journal} (hj : j.Sound pieces text) {place : Place}
    (h : search (pieces.drop place.1) (text.drop place.2) = none) :
    (j.fail place).Sound pieces text := by
  intro other hother
  rcases Std.HashSet.mem_insert.mp hother with heq | hmem
  · rw [← eq_of_beq heq]
    exact h
  · exact hj other hmem

/-- What a search from a place comes to, given the answer of the plain search. -/
structure Agrees (pieces : List Piece) (text : List Char) (place : Place) (before : Journal)
    (plain : Option (List Nat)) (found : Bool) (after : Journal) : Prop extends
    Writes place before.spans plain found after.spans where
  sound : after.Sound pieces text

/-! ## One piece -/

/-- The ways to take from a place, tried one after the other. The hypotheses are that the search for
the pieces that follow agrees with the plain one, and that the place fails if all ways fail. -/
theorem tryTakes_agrees {go : Take → Journal → Bool × Journal} {place : Place} {rest : List Piece}
    {ts : List Take} {j : Journal} (hplace : place.1 < pieces.length)
    (hgo : ∀ t ∈ ts, ∀ j : Journal, j.Sound pieces text → j.spans.length = pieces.length →
      Agrees pieces text (place.1 + 1, place.2 + t.count) j (search rest t.left)
        (go t j).1 (go t j).2)
    (hfail : (ts.findSome? fun t => (search rest t.left).map (t.count :: ·)) = none →
      search (pieces.drop place.1) (text.drop place.2) = none)
    (hj : j.Sound pieces text) (hlen : j.spans.length = pieces.length) :
    Agrees pieces text place j (ts.findSome? fun t => (search rest t.left).map (t.count :: ·))
      (tryTakes go place ts j).1 (tryTakes go place ts j).2 := by
  induction ts generalizing j with
  | nil =>
    refine ⟨⟨rfl, rfl, fun i _ => rfl, fun counts h => ?_⟩, hj.fail (hfail rfl)⟩
    cases h
  | cons t ts ih =>
    have hlen' : (j.record place t.count).spans.length = pieces.length := by
      simpa [Journal.record] using hlen
    have hfirst := hgo t List.mem_cons_self (j.record place t.count) hj hlen'
    rw [tryTakes]
    generalize hres : go t (j.record place t.count) = result at hfirst ⊢
    obtain ⟨found, after⟩ := result
    cases hplain : search rest t.left with
    | some counts =>
      rw [hplain] at hfirst
      obtain rfl : found = true := hfirst.answer
      rw [List.findSome?_cons, hplain]
      exact ⟨hfirst.toWrites.first (by rw [hlen]; exact hplace), hfirst.sound⟩
    | none =>
      rw [hplain] at hfirst
      obtain rfl : found = false := hfirst.answer
      rw [List.findSome?_cons, hplain] at hfail ⊢
      have hafter : after.spans.length = pieces.length := by rw [hfirst.length, hlen']
      have hrest := ih (fun t' ht' => hgo t' (List.mem_cons_of_mem _ ht')) hfail hfirst.sound hafter
      exact ⟨hfirst.toWrites.again hrest.toWrites, hrest.sound⟩

/-! ## The search from a place -/

/-- A way to take leaves what stands behind the characters it takes. -/
theorem left_of_mem_takes {piece : Piece} {cs : List Char} {t : Take} (h : t ∈ piece.takes cs) :
    t.left = cs.drop t.count := by
  rw [← Piece.map_snd_options] at h
  obtain ⟨⟨choice, t⟩, ho, rfl⟩ := List.mem_map.mp h
  exact (Piece.mem_options_iff.mp ho).2.1

/-- **The search from a place agrees with the plain search**, whatever the journal holds, as long as
its failed places are places from which the plain search fails. -/
theorem searchFrom_agrees {ps : List Piece} {place : Place} {cs : List Char} {j : Journal}
    (hps : ps = pieces.drop place.1) (hcs : cs = text.drop place.2)
    (hplace : place.1 ≤ pieces.length) (hj : j.Sound pieces text)
    (hlen : j.spans.length = pieces.length) :
    Agrees pieces text place j (search ps cs) (searchFrom ps place cs j).1
      (searchFrom ps place cs j).2 := by
  induction ps generalizing place cs j with
  | nil =>
    have hend : pieces.length ≤ place.1 := List.drop_eq_nil_iff.mp hps.symm
    rw [search, searchFrom]
    refine ⟨⟨?_, rfl, fun i _ => rfl, fun counts h => ?_⟩, hj⟩
    · by_cases hempty : cs.isEmpty = true
      · simp [hempty]
      · simp [hempty]
    · split_ifs at h
      cases h
      have hshort : j.spans.length ≤ place.1 := by omega
      exact List.drop_eq_nil_of_le hshort
  | cons piece rest ih =>
    have hlt : place.1 < pieces.length := by
      by_contra hge
      rw [List.drop_eq_nil_of_le (by omega)] at hps
      cases hps
    rw [searchFrom]
    by_cases hmem : j.failed.contains place = true
    · rw [if_pos hmem]
      have hnone : search (piece :: rest) cs = none := by
        rw [hps, hcs]
        exact hj place (Std.HashSet.mem_iff_contains.mpr hmem)
      rw [hnone]
      exact ⟨⟨rfl, rfl, fun i _ => rfl, fun counts h => by cases h⟩, hj⟩
    · rw [if_neg hmem]
      have hrest : rest = pieces.drop (place.1 + 1) := by
        rw [← List.tail_drop, ← hps, List.tail_cons]
      have htry : Agrees pieces text place (j.enter place) (search (piece :: rest) cs)
          (tryTakes (fun t => searchFrom rest (place.1 + 1, place.2 + t.count) t.left) place
            (piece.takes cs) (j.enter place)).1
          (tryTakes (fun t => searchFrom rest (place.1 + 1, place.2 + t.count) t.left) place
            (piece.takes cs) (j.enter place)).2 := by
        refine tryTakes_agrees hlt (fun t ht j' hj' hlen' => ?_) (fun hnone => ?_) hj hlen
        · refine ih hrest ?_ hlt hj' hlen'
          rw [left_of_mem_takes ht, hcs, List.drop_drop]
        · rw [← hps, ← hcs]
          exact hnone
      exact ⟨⟨htry.answer, htry.length, htry.below, htry.written⟩, htry.sound⟩

/-! ## The whole search -/

/-- From the start and with nothing tried, the search agrees with the plain search. -/
theorem searchFrom_start_agrees (ps : List Piece) (cs : List Char) :
    Agrees ps cs (0, 0) (.blank ps.length) (search ps cs)
      (searchFrom ps (0, 0) cs (.blank ps.length)).1
      (searchFrom ps (0, 0) cs (.blank ps.length)).2 :=
  searchFrom_agrees rfl rfl (Nat.zero_le _) (Journal.sound_blank _) (by simp [Journal.blank])

/-- The search of a pattern agrees with the plain search. -/
theorem trace_agrees (p : Pattern) (s : String) :
    Agrees (p.atoms.map (·.piece)) s.toList (0, 0) (.blank p.atoms.length)
      (search (p.atoms.map (·.piece)) s.toList) (p.trace s).1 (p.trace s).2 := by
  have h := searchFrom_start_agrees (p.atoms.map (·.piece)) s.toList
  rw [List.length_map] at h
  exact h

/-- **Fitting a text cuts it at the counts of the plain search.** -/
theorem fit?_eq (p : Pattern) (s : String) :
    p.fit? s = (search (p.atoms.map (·.piece)) s.toList).map fun counts =>
      p.fitOf ((spansFrom 0 counts).map (segment s.toList)) := by
  have hagrees := p.trace_agrees s
  rw [fit?]
  generalize p.trace s = result at hagrees ⊢
  obtain ⟨found, j⟩ := result
  cases hplain : search (p.atoms.map (·.piece)) s.toList with
  | none =>
    rw [hplain] at hagrees
    obtain rfl : found = false := hagrees.answer
    rfl
  | some counts =>
    rw [hplain] at hagrees
    obtain rfl : found = true := hagrees.answer
    have hspans : j.spans = spansFrom 0 counts := hagrees.written counts rfl
    simp [hspans]

end CallRouting.Pattern

import CallRouting.Proofs.Compiled
import CallRouting.Proofs.Memory
import Mathlib.Data.Finset.Prod

/-!
# No place is opened twice

A search opens a place when it has not failed from it before, and then tries the ways to take there.
That it never comes back to a place that it opened is no matter of the answer: a search that forgot
some of its failures would answer the same and take longer.

* **Invariant** (`Journal.Settled`): nothing was opened twice, and from every place that was opened
  at an atom or behind it the search has failed. The places before the atom are the ones at which it
  is still under way.
* **One search** (`Explores`, `searchFrom_explores`): from a settled journal, a search opens new
  places only, each at its atom or behind it and inside the text, and the journal is settled again
  if the search fails. If it succeeds nothing more is opened.
* **The whole search** (`opens_once`): no place twice, and not more places than there are atoms
  times positions. The same holds of a search that goes as deep as there is room and no further.
-/

namespace CallRouting.Pattern

/-! ## The invariant -/

/-- Nothing was opened twice, and from every place that was opened at an atom or behind it the
search has failed. -/
structure Journal.Settled (index : Nat) (j : Journal) : Prop where
  nodup : j.opened.Nodup
  failed : ∀ place ∈ j.opened, index ≤ place.1 → place ∈ j.failed

/-- A blank journal is settled. -/
theorem Journal.settled_blank (index atoms : Nat) : (blank atoms).Settled index :=
  ⟨List.nodup_nil, fun _ h => absurd h List.not_mem_nil⟩

/-- A place from which the search has not failed can be opened. -/
theorem Journal.Settled.enter {j : Journal} {place : Place} (h : j.Settled place.1)
    (hplace : place ∉ j.failed) : (j.enter place).Settled (place.1 + 1) := by
  refine ⟨List.nodup_cons.mpr ⟨fun hopened => ?_, h.nodup⟩, fun other hother hindex => ?_⟩
  · exact hplace (h.failed place hopened le_rfl)
  · rcases List.mem_cons.mp hother with rfl | hother
    · exact absurd hindex (Nat.not_succ_le_self _)
    · exact h.failed other hother (Nat.le_of_succ_le hindex)

/-- What an atom tries is no matter of the places. -/
theorem Journal.Settled.record {index : Nat} {j : Journal} (h : j.Settled index) (place : Place)
    (count : Nat) : (j.record place count).Settled index :=
  ⟨h.nodup, h.failed⟩

/-- When all ways from a place were tried, the search has failed from it as well, and so from every
place at its atom, if it was the only one there that was still open. -/
theorem Journal.Settled.fail {j : Journal} {place : Place} (h : j.Settled (place.1 + 1))
    (hothers : ∀ other ∈ j.opened, other.1 = place.1 → other = place ∨ other ∈ j.failed) :
    (j.fail place).Settled place.1 := by
  refine ⟨h.nodup, fun other hopened hindex => ?_⟩
  rcases Nat.eq_or_lt_of_le hindex with heq | hlt
  · rcases hothers other hopened heq.symm with rfl | hother
    · exact Std.HashSet.mem_insert_self
    · exact Std.HashSet.mem_insert.mpr (Or.inr hother)
  · exact Std.HashSet.mem_insert.mpr (Or.inr (h.failed other hopened hlt))

/-- What a search does that starts at an atom: the places that it opens are at that atom or behind
it, before the end of the atoms and within the text, and are none of those that were opened before.
No failure is forgotten, and if the search fails the journal is settled. -/
structure Explores (index atoms positions : Nat) (before : Journal) (found : Bool)
    (after : Journal) : Prop where
  nodup : after.opened.Nodup
  opened : ∀ place ∈ after.opened,
    place ∈ before.opened ∨ index ≤ place.1 ∧ place.1 < atoms ∧ place.2 ≤ positions
  failed : ∀ place ∈ before.failed, place ∈ after.failed
  settled : found = false → after.Settled index

variable {atoms positions : Nat}

/-- A search that opens nothing leaves a settled journal as it is. -/
theorem Journal.Settled.explores {index : Nat} {j : Journal} (h : j.Settled index) (found : Bool) :
    Explores index atoms positions j found j :=
  ⟨h.nodup, fun _ hopened => Or.inl hopened, fun _ hfailed => hfailed, fun _ => h⟩

/-- A search that succeeds behind an atom is the end of the search at it. -/
theorem Explores.found {index : Nat} {before after : Journal}
    (h : Explores (index + 1) atoms positions before true after) :
    Explores index atoms positions before true after := by
  refine ⟨h.nodup, fun other hother => ?_, h.failed, fun hfound => by cases hfound⟩
  exact (h.opened other hother).imp_right fun hnew => ⟨Nat.le_of_succ_le hnew.1, hnew.2⟩

/-- After a search that failed behind an atom, the search at it goes on. -/
theorem Explores.trans {index : Nat} {before between after : Journal} {found : Bool}
    (hfirst : Explores (index + 1) atoms positions before false between)
    (hrest : Explores index atoms positions between found after) :
    Explores index atoms positions before found after := by
  refine ⟨hrest.nodup, fun other hother => ?_,
    fun other hother => hrest.failed other (hfirst.failed other hother), hrest.settled⟩
  rcases hrest.opened other hother with hold | hnew
  · exact (hfirst.opened other hold).imp_right fun h => ⟨Nat.le_of_succ_le h.1, h.2⟩
  · exact Or.inr hnew

/-! ## One piece -/

/-- The ways to take from a place, tried one after the other. The place itself is open, and from
every other place at its atom that was opened the search has failed. -/
theorem tryTakes_explores {go : Take → Journal → Bool × Journal} {place : Place} {ts : List Take}
    {j : Journal}
    (hgo : ∀ t ∈ ts, ∀ j : Journal, j.Settled (place.1 + 1) →
      Explores (place.1 + 1) atoms positions j (go t j).1 (go t j).2)
    (hj : j.Settled (place.1 + 1))
    (hothers : ∀ other ∈ j.opened, other.1 = place.1 → other = place ∨ other ∈ j.failed) :
    Explores place.1 atoms positions j (tryTakes go place ts j).1 (tryTakes go place ts j).2 := by
  induction ts generalizing j with
  | nil =>
    have hfailed : ∀ other ∈ j.failed, other ∈ (j.fail place).failed :=
      fun other hother => Std.HashSet.mem_insert.mpr (Or.inr hother)
    exact ⟨hj.nodup, fun _ hopened => Or.inl hopened, hfailed, fun _ => hj.fail hothers⟩
  | cons t ts ih =>
    have htried := hgo t List.mem_cons_self (j.record place t.count) (hj.record place t.count)
    have hfirst : Explores (place.1 + 1) atoms positions j (go t (j.record place t.count)).1
        (go t (j.record place t.count)).2 :=
      ⟨htried.nodup, htried.opened, htried.failed, htried.settled⟩
    rw [tryTakes]
    generalize go t (j.record place t.count) = result at hfirst ⊢
    obtain ⟨found, after⟩ := result
    cases found with
    | true => exact hfirst.found
    | false =>
      -- whatever was opened meanwhile stands behind the atom: the place is still the only open one
      have hstill : ∀ other ∈ after.opened, other.1 = place.1 →
          other = place ∨ other ∈ after.failed := by
        intro other hother hindex
        rcases hfirst.opened other hother with hold | ⟨hbehind, -⟩
        · exact (hothers other hold hindex).imp_right (hfirst.failed other)
        · omega
      have hlater : ∀ t' ∈ ts, ∀ j : Journal, j.Settled (place.1 + 1) →
          Explores (place.1 + 1) atoms positions j (go t' j).1 (go t' j).2 :=
        fun t' ht' => hgo t' (List.mem_cons_of_mem _ ht')
      exact hfirst.trans (ih hlater (hfirst.settled rfl) hstill)

/-! ## The search from a place -/

/-- A way to take takes no more than there is. -/
theorem count_le_of_mem_takes {piece : Piece} {cs : List Char} {t : Take} (h : t ∈ piece.takes cs) :
    t.count ≤ cs.length := by
  rw [← Piece.map_snd_options] at h
  obtain ⟨⟨choice, t⟩, ho, rfl⟩ := List.mem_map.mp h
  exact (Piece.mem_options_iff.mp ho).1

/-- **What a search from a place opens.** -/
theorem searchFrom_explores {ps : List Piece} {place : Place} {cs : List Char} {j : Journal}
    (hatoms : place.1 + ps.length = atoms) (hpositions : place.2 + cs.length = positions)
    (hj : j.Settled place.1) :
    Explores place.1 atoms positions j (searchFrom ps place cs j).1
      (searchFrom ps place cs j).2 := by
  induction ps generalizing place cs j with
  | nil => exact hj.explores cs.isEmpty
  | cons piece rest ih =>
    rw [List.length_cons] at hatoms
    rw [searchFrom]
    by_cases hmem : j.failed.contains place = true
    · rw [if_pos hmem]
      exact hj.explores false
    · rw [if_neg hmem]
      have hplace : place ∉ j.failed := fun h => hmem (Std.HashSet.mem_iff_contains.mp h)
      have htry : Explores place.1 atoms positions (j.enter place)
          (tryTakes (fun t => searchFrom rest (place.1 + 1, place.2 + t.count) t.left) place
            (piece.takes cs) (j.enter place)).1
          (tryTakes (fun t => searchFrom rest (place.1 + 1, place.2 + t.count) t.left) place
            (piece.takes cs) (j.enter place)).2 := by
        refine tryTakes_explores (fun t ht j' hj' => ?_) (hj.enter hplace)
          fun other hother hindex => ?_
        · have hcount := count_le_of_mem_takes ht
          have hleft : t.left.length = cs.length - t.count := by
            rw [left_of_mem_takes ht, List.length_drop]
          have hnext : j'.Settled (place.1 + 1, place.2 + t.count).1 := hj'
          refine ih ?_ ?_ hnext
          · change place.1 + 1 + rest.length = atoms
            omega
          · change place.2 + t.count + t.left.length = positions
            omega
        · rcases List.mem_cons.mp hother with rfl | hother
          · exact Or.inl rfl
          · exact Or.inr (hj.failed other hother hindex.ge)
      refine ⟨htry.nodup, fun other hother => ?_, htry.failed, htry.settled⟩
      rcases htry.opened other hother with hold | hnew
      · rcases List.mem_cons.mp hold with rfl | hold
        · exact Or.inr ⟨le_rfl, by omega, by omega⟩
        · exact Or.inl hold
      · exact Or.inr hnew

/-! ## The whole search -/

/-- Whether no place was opened twice, every place is that of an atom and a position in the text,
and there are not more of them than atoms times positions. -/
structure OpensOnce (atoms positions : Nat) (j : Journal) : Prop where
  nodup : j.opened.Nodup
  inside : ∀ place ∈ j.opened, place.1 < atoms ∧ place.2 ≤ positions
  count : j.opened.length ≤ atoms * (positions + 1)

/-- There are not more places than atoms times positions. -/
theorem OpensOnce.of_inside {j : Journal} (hnodup : j.opened.Nodup)
    (hinside : ∀ place ∈ j.opened, place.1 < atoms ∧ place.2 ≤ positions) :
    OpensOnce atoms positions j := by
  refine ⟨hnodup, hinside, ?_⟩
  have hsub : j.opened.toFinset ⊆ Finset.range atoms ×ˢ Finset.range (positions + 1) := by
    intro place hplace
    obtain ⟨hindex, hposition⟩ := hinside place (List.mem_toFinset.mp hplace)
    exact Finset.mem_product.mpr
      ⟨Finset.mem_range.mpr hindex, Finset.mem_range.mpr (Nat.lt_succ_of_le hposition)⟩
  calc j.opened.length = j.opened.toFinset.card := (List.toFinset_card_of_nodup hnodup).symm
    _ ≤ (Finset.range atoms ×ˢ Finset.range (positions + 1)).card := Finset.card_le_card hsub
    _ = atoms * (positions + 1) := by rw [Finset.card_product, Finset.card_range, Finset.card_range]

/-- With more atoms there is more room. -/
theorem OpensOnce.mono {atoms' : Nat} {j : Journal} (h : OpensOnce atoms positions j)
    (hle : atoms ≤ atoms') : OpensOnce atoms' positions j :=
  .of_inside h.nodup fun place hplace => ⟨(h.inside place hplace).1.trans_le hle,
    (h.inside place hplace).2⟩

/-- From the start and with nothing tried, a search opens no place twice. -/
theorem opensOnce_searchFrom (ps : List Piece) (cs : List Char) :
    OpensOnce ps.length cs.length (searchFrom ps (0, 0) cs (.blank ps.length)).2 := by
  have hexplores : Explores 0 ps.length cs.length (.blank ps.length)
      (searchFrom ps (0, 0) cs (.blank ps.length)).1
      (searchFrom ps (0, 0) cs (.blank ps.length)).2 :=
    have hblank : (Journal.blank ps.length).Settled ((0, 0) : Place).1 :=
      Journal.settled_blank 0 ps.length
    searchFrom_explores (Nat.zero_add _) (Nat.zero_add _) hblank
  refine .of_inside hexplores.nodup fun place hplace => ?_
  rcases hexplores.opened place hplace with hold | ⟨-, hinside⟩
  · exact absurd hold List.not_mem_nil
  · exact hinside

/-- The search of a pattern for a text with all atoms behind the first ones left out: it goes so
deep and no further. -/
def traceWithin (p : Pattern) (depth : Nat) (text : String) : Bool × Journal :=
  let start := (p.atoms.take depth).map (·.piece) ++ [.rest]
  searchFrom start (0, 0) text.toList (.blank start.length)

/-- Whether a search is too deep is found by going as deep as there is room. -/
theorem tooDeep_eq (p : Pattern) (room : Nat) (text : String) :
    p.tooDeep room text = (decide (room < p.atoms.length) && (p.traceWithin room text).1) :=
  rfl

/-- **No place is opened twice.** In the search of any pattern for any text, each place that is
opened is that of an atom and a position in the text, no place comes twice, and so there are not
more of them than atoms times positions. If there is no room for the search, this holds of the
places that are opened before it is given up. -/
theorem opens_once (p : Pattern) (text : String) :
    OpensOnce p.atoms.length text.length (p.trace text).2 ∧
      ∀ room, p.tooDeep room text = true →
        OpensOnce p.atoms.length text.length (p.traceWithin room text).2 := by
  have htrace := opensOnce_searchFrom p.pieces text.toList
  rw [length_pieces] at htrace
  refine ⟨htrace, fun room hdeep => ?_⟩
  rw [tooDeep_eq, Bool.and_eq_true, decide_eq_true_eq] at hdeep
  refine (opensOnce_searchFrom _ text.toList).mono ?_
  rw [List.length_append, List.length_map, List.length_take, List.length_singleton]
  omega

end CallRouting.Pattern

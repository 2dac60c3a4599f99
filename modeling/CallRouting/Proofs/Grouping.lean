import CallRouting.Pattern.Fit
import CallRouting.Proofs.Compiled
import Mathlib.Data.List.Induction

/-!
# What the atoms of a group come to

The lengths of the capture groups are counted, and the groups are filled, atom by atom over all of a
pattern. What a group comes to depends on its own atoms only.

* **Lengths** (`groupLengths_eq`): a group is as long as it has atoms, unless one of them has a
  quantifier.
* **Captures** (`groups_captured`, `rest_captured`): a group holds the segments of its atoms in
  order, and the rest is the segment of the atom that takes all that is left.

Both go by induction on the atoms from the end, since a loop goes on with what it has come to.
-/

namespace CallRouting

namespace Pattern

/-! ## Lengths -/

/-- The atoms of a capture group. -/
def members (p : Pattern) (group : Nat) : List Atom := p.atoms.filter (·.group = some group)

/-- The length of everything that some atoms capture together; none if a quantifier makes it
vary. -/
def lengthOf (members : List Atom) : Option Nat :=
  if members.all (·.piece.quantifier? = none) then some members.length else none

/-- The length that everything captured by a group has; none if a quantifier makes it vary. -/
def groupLength (p : Pattern) (group : Nat) : Option Nat := lengthOf (p.members group)

/-- One more atom counts for the length. -/
theorem lengthOf_concat (members : List Atom) (a : Atom) :
    lengthOf (members ++ [a]) =
      if a.piece.quantifier? = none then (lengthOf members).map (· + 1) else none := by
  by_cases ha : a.piece.quantifier? = none <;>
    by_cases hall : members.all (·.piece.quantifier? = none) = true <;>
    simp [lengthOf, ha, hall]

/-- Counting atoms gives each group the length of its own. -/
theorem foldl_countAtom (atoms : List Atom) (count : Nat) :
    atoms.foldl countAtom (List.replicate count (some 0)) =
      (List.range count).map fun group => lengthOf (atoms.filter (·.group = some group)) := by
  induction atoms using List.reverseRecOn with
  | nil => simp [lengthOf]
  | append_singleton atoms a ih =>
    rw [List.foldl_append, List.foldl_cons, List.foldl_nil, ih, countAtom]
    cases hgroup : a.group with
    | none => simp [hgroup]
    | some group =>
      refine List.ext_getElem? fun i => ?_
      by_cases hi : i < count
      · by_cases heq : group = i
        · simp [hgroup, heq, hi, lengthOf_concat]
        · simp [hgroup, heq, hi]
      · simp [hi]

/-- **A group is as long as it has atoms**, unless one of them has a quantifier. -/
theorem groupLengths_eq (p : Pattern) :
    p.groupLengths = (List.range p.groupCount).map p.groupLength :=
  foldl_countAtom p.atoms p.groupCount

/-- There is a length for every group. -/
@[simp] theorem length_groupLengths (p : Pattern) : p.groupLengths.length = p.groupCount := by
  simp [groupLengths_eq]

/-! ## Captures -/

/-- What a capture group holds, given what each atom took. -/
def capture (atoms : List Atom) (segments : List String) (group : Nat) : String :=
  String.join (((atoms.zip segments).filter fun q => q.1.group = some group).map (·.2))

/-- What the atom that takes all that is left took. -/
def restCapture (atoms : List Atom) (segments : List String) : Option String :=
  ((atoms.zip segments).find? fun q => q.1.piece = .rest).map (·.2)

/-- What an atom without a group took goes to no group. -/
theorem Captured.groups_add_of_none {a : Atom} (h : a.group = none) (c : Captured)
    (segment : String) : (c.add a segment).groups = c.groups := by
  simp only [add, h]
  split_ifs <;> rfl

/-- What an atom of a group took goes to that group. -/
theorem Captured.groups_add_of_some {a : Atom} {group : Nat} (h : a.group = some group)
    (c : Captured) (segment : String) :
    (c.add a segment).groups = c.groups.modify group (· ++ segment) := by
  simp only [add, h]

/-- Adding segments gives each group those of its own atoms. -/
theorem groups_foldl_add (taken : List (Atom × String)) (count : Nat) :
    (taken.foldl (fun c q => c.add q.1 q.2) (Captured.blank count)).groups =
      (List.range count).map fun group =>
        String.join ((taken.filter fun q => q.1.group = some group).map (·.2)) := by
  induction taken using List.reverseRecOn with
  | nil => simp [Captured.blank]
  | append_singleton taken q ih =>
    rw [List.foldl_append, List.foldl_cons, List.foldl_nil]
    cases hgroup : q.1.group with
    | none => simp [Captured.groups_add_of_none hgroup, ih, hgroup]
    | some group =>
      rw [Captured.groups_add_of_some hgroup, ih]
      refine List.ext_getElem? fun i => ?_
      by_cases hi : i < count
      · by_cases heq : group = i
        · simp [hgroup, heq, hi]
        · simp [hgroup, heq, hi]
      · simp [hi]

/-- **A group holds the segments of its atoms**, joined in order. -/
theorem groups_captured (p : Pattern) (segments : List String) :
    (p.captured segments).groups = (List.range p.groupCount).map (capture p.atoms segments) :=
  groups_foldl_add _ _

/-- Adding segments keeps what there is of a rest, unless an atom takes all that is left. -/
theorem rest_foldl_add {atoms : List Atom} (hlast : RestLast (atoms.map (·.piece)))
    (hgroup : ∀ a ∈ atoms, a.piece = .rest → a.group = none) (segments : List String)
    (c : Captured) :
    ((atoms.zip segments).foldl (fun c q => c.add q.1 q.2) c).rest =
      (restCapture atoms segments).or c.rest := by
  induction atoms generalizing segments c with
  | nil => simp [restCapture]
  | cons a atoms ih =>
    obtain ⟨ha, hgroup⟩ := List.forall_mem_cons.mp hgroup
    cases segments with
    | nil => simp [restCapture]
    | cons s segments =>
      rw [List.zip_cons_cons, List.foldl_cons]
      by_cases hrest : a.piece = .rest
      · -- nothing stands behind it
        rw [List.map_cons, hrest] at hlast
        obtain rfl := List.map_eq_nil_iff.mp hlast.eq_nil
        simp [Captured.add, ha hrest, hrest, restCapture]
      · have hkept : (c.add a s).rest = c.rest := by
          cases hg : a.group <;> simp [Captured.add, hg, hrest]
        rw [ih hlast.tail hgroup, hkept]
        simp [restCapture, hrest]

/-- **The rest is what the last atom took**, if that takes all that is left and belongs to no
group. -/
theorem rest_captured {p : Pattern} (hlast : RestLast p.pieces)
    (hgroup : ∀ a ∈ p.atoms, a.piece = .rest → a.group = none) (segments : List String) :
    (p.captured segments).rest = restCapture p.atoms segments := by
  rw [captured, rest_foldl_add hlast hgroup]
  exact Option.or_none

/-- Atoms with the same groups, the same ones of which take all that is left, capture alike. -/
theorem foldl_add_congr {xs ys : List Atom}
    (hgroups : xs.map (·.group) = ys.map (·.group))
    (hrest : xs.map (fun a => decide (a.piece = .rest)) =
      ys.map fun a => decide (a.piece = .rest)) (segments : List String) (c : Captured) :
    (xs.zip segments).foldl (fun c q => c.add q.1 q.2) c =
      (ys.zip segments).foldl (fun c q => c.add q.1 q.2) c := by
  induction xs generalizing ys segments c with
  | nil =>
    rw [List.map_nil, eq_comm, List.map_eq_nil_iff] at hgroups
    rw [hgroups]
  | cons x xs ih =>
    cases ys with
    | nil => cases hgroups
    | cons y ys =>
      cases segments with
      | nil => rfl
      | cons s segments =>
        rw [List.map_cons, List.map_cons, List.cons.injEq] at hgroups hrest
        have hadd : c.add x s = c.add y s := by
          simp only [Captured.add, hgroups.1, decide_eq_decide.mp hrest.1]
        rw [List.zip_cons_cons, List.foldl_cons, hadd, List.zip_cons_cons, List.foldl_cons]
        exact ih hgroups.2 hrest.2 segments _

end Pattern

end CallRouting

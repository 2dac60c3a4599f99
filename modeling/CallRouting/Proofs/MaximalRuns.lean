import CallRouting.Proofs.Numbering
import Mathlib.Data.Finset.Card
import Mathlib.Order.Interval.Finset.Nat

/-!
# Capture groups are maximal runs

Which atoms share a capture group can be told from the atoms alone, without a count of the groups
before them: those that stand for digit classes side by side, each one written with the letter of
the one just before it or with `x`.

* **Neighbours** (`Continues`, `Joined`): of two neighbours the second is in the group of the first
  exactly if it continues it. Numbering sees neighbours only, and keeps this for all of them
  (`isChain_joined_numberGroups`).
* **Numbers** (`Grouped.isChain_groupNumbers`, `Grouped.mem_groupNumbers_iff`): along runs the
  numbers never decrease and never skip, and all of them occur.
* **Any two atoms** (`group_eq_iff_forall_continues`): the pairs of neighbours between them are put
  together one after the other. That a group holds no other atoms comes from `group_eq_iff_index`.
-/

namespace CallRouting

/-- Whether a piece stands for a digit class, with a quantifier or without. -/
def Piece.IsDigits (piece : Piece) : Prop :=
  ∃ cls q, piece = .single cls q ∧ cls.isDigitClass = true

/-- What captures is a digit class. -/
theorem Piece.capturing?_eq_some_iff {piece : Piece} {cls : CharClass} :
    piece.capturing? = some cls ↔ cls.isDigitClass = true ∧ ∃ q, piece = .single cls q := by
  cases piece with
  | single cls' q =>
    simp only [capturing?, Option.ite_none_right_eq_some, Option.some.injEq, single.injEq]
    constructor
    · rintro ⟨hcls, rfl⟩
      exact ⟨hcls, q, rfl, rfl⟩
    · rintro ⟨hcls, -, rfl, -⟩
      exact ⟨hcls, rfl⟩
  | choice alternatives => simp [capturing?]
  | rest => simp [capturing?]

/-- A piece stands for a digit class exactly if it captures. -/
theorem Piece.isDigits_iff {piece : Piece} :
    piece.IsDigits ↔ ∃ cls, piece.capturing? = some cls := by
  simp only [capturing?_eq_some_iff, IsDigits]
  constructor
  · rintro ⟨cls, q, hpiece, hcls⟩
    exact ⟨cls, hcls, q, hpiece⟩
  · rintro ⟨cls, hcls, q, hpiece⟩
    exact ⟨cls, q, hpiece, hcls⟩

namespace Pattern

/-! ## Neighbours -/

/-- Whether an atom continues the capture group of the atom just before it: both stand for digit
classes, and it is written with the same letter or with `x`. -/
structure Continues (before a : Atom) : Prop where
  before_digits : before.piece.IsDigits
  digits : a.piece.IsDigits
  letter : a.piece.token = before.piece.token ∨ a.piece.token = 'x'

/-- Whether the second of two neighbours is in the group of the first exactly if it continues it. -/
def Joined (before a : Atom) : Prop :=
  ∀ g, before.group = some g → (a.group = some g ↔ Continues before a)

/-- Digit classes have letters of their own. -/
theorem token_eq_iff_of_isDigitClass {cls cls' : CharClass} (h : cls.isDigitClass = true)
    (h' : cls'.isDigitClass = true) : cls.token = cls'.token ↔ cls = cls' := by
  cases cls <;> cases cls' <;> simp_all [CharClass.isDigitClass, CharClass.token]

/-- Numbering goes by classes, and these are known by their letters. -/
theorem continues_iff {before a : Atom} {cls cls' : CharClass}
    (hbefore : before.piece.capturing? = some cls) (ha : a.piece.capturing? = some cls') :
    Continues before a ↔ continuesGroup cls cls' = true := by
  have hdigits : before.piece.IsDigits := Piece.isDigits_iff.mpr ⟨cls, hbefore⟩
  have hdigits' : a.piece.IsDigits := Piece.isDigits_iff.mpr ⟨cls', ha⟩
  obtain ⟨hcls, q, hpiece⟩ := Piece.capturing?_eq_some_iff.mp hbefore
  obtain ⟨hcls', q', hpiece'⟩ := Piece.capturing?_eq_some_iff.mp ha
  have hnext : cls'.token = CharClass.nextDigit.token ↔ cls' = .nextDigit :=
    token_eq_iff_of_isDigitClass hcls' rfl
  have hletter : a.piece.token = before.piece.token ∨ a.piece.token = 'x' ↔
      continuesGroup cls cls' = true := by
    rw [hpiece, hpiece', continuesGroup, Bool.or_eq_true, decide_eq_true_eq, decide_eq_true_eq]
    exact or_congr (token_eq_iff_of_isDigitClass hcls' hcls) hnext
  rw [← hletter]
  exact ⟨Continues.letter, fun h => ⟨hdigits, hdigits', h⟩⟩

/-- An atom that is numbered right behind a digit class is joined to it: it gets the number of the
class exactly if it continues it. -/
theorem joined_of_mem_head? {before b : Atom} {cls : CharClass} {g count : Nat} {atoms : List Atom}
    (hbefore : before.piece.capturing? = some cls) (hgroup : before.group = some g)
    (hcount : g < count) (hnone : ∀ a ∈ atoms, a.group = none)
    (hb : b ∈ (numberGroups (some (cls, g)) count atoms).1.head?) : Joined before b := by
  cases atoms with
  | nil => cases hb
  | cons a rest =>
    rw [numberGroups] at hb
    intro g' hg'
    obtain rfl : g = g' := Option.some.inj (hgroup.symm.trans hg')
    cases hcap : a.piece.capturing? with
    | none =>
      simp only [hcap, List.head?_cons, Option.mem_some_iff] at hb
      subst hb
      refine iff_of_false (fun ha => ?_) fun hcont => ?_
      · rw [hnone a List.mem_cons_self] at ha
        cases ha
      · obtain ⟨cls', hcls'⟩ := Piece.isDigits_iff.mp hcont.digits
        rw [hcap] at hcls'
        cases hcls'
    | some cls' =>
      simp only [hcap, List.head?_cons, Option.mem_some_iff] at hb
      have hcapb : b.piece.capturing? = some cls' := by rw [← hb]; exact hcap
      have hgroupb : b.group = some (nextGroup (some (cls, g)) count cls') := by rw [← hb]
      rw [continues_iff hbefore hcapb, hgroupb, Option.some.injEq, nextGroup]
      cases hcont : continuesGroup cls cls' with
      | true => simp
      | false =>
        simp only [Bool.false_eq_true, if_false, iff_false]
        omega

/-- **Numbering joins neighbours**, whatever was numbered before. The atoms have no group before
they are numbered. -/
theorem isChain_joined_numberGroups (previous : Option (CharClass × Nat)) (count : Nat)
    (atoms : List Atom) (hnone : ∀ a ∈ atoms, a.group = none) :
    (numberGroups previous count atoms).1.IsChain Joined := by
  induction atoms generalizing previous count with
  | nil => exact .nil
  | cons a atoms ih =>
    obtain ⟨ha, hatoms⟩ := List.forall_mem_cons.mp hnone
    rw [numberGroups]
    cases hcap : a.piece.capturing? with
    | none =>
      refine List.isChain_cons.mpr ⟨fun b _ g hg => ?_, ih _ _ hatoms⟩
      rw [ha] at hg
      cases hg
    | some cls =>
      refine List.isChain_cons.mpr ⟨fun b hb => ?_, ih _ _ hatoms⟩
      exact joined_of_mem_head? hcap rfl (Nat.lt_of_succ_le (Nat.le_max_right _ _)) hatoms hb

/-! ## Numbers -/

/-- The numbers of the capture groups, atom by atom. -/
def groupNumbers (atoms : List Atom) : List Nat := atoms.filterMap (·.group)

/-- The numbers of two sequences of atoms, one after the other. -/
theorem groupNumbers_append (xs ys : List Atom) :
    groupNumbers (xs ++ ys) = groupNumbers xs ++ groupNumbers ys := List.filterMap_append

namespace Grouped

variable {n m : Nat} {atoms : List Atom}

/-- A run of atoms has its number throughout. -/
theorem groupNumbers_run {members : List Atom} (h : ∀ a ∈ members, a.group = some n) :
    groupNumbers members = List.replicate members.length n := by
  induction members with
  | nil => rfl
  | cons a members ih =>
    obtain ⟨ha, hmembers⟩ := List.forall_mem_cons.mp h
    rw [groupNumbers, List.filterMap_cons_some ha, List.length_cons, List.replicate_succ]
    exact congrArg (n :: ·) (ih hmembers)

/-- The numbers are counted upwards. -/
theorem le (h : Grouped n atoms m) : n ≤ m := by
  induction h with
  | nil n => exact le_rfl
  | plain _ _ ih => exact ih
  | run _ _ _ ih => exact Nat.le_of_succ_le ih

/-- **All numbers occur**, from the first one up to, but without, the last one. -/
theorem mem_groupNumbers_iff (h : Grouped n atoms m) {g : Nat} :
    g ∈ groupNumbers atoms ↔ n ≤ g ∧ g < m := by
  induction h with
  | nil n =>
    simp only [groupNumbers, List.filterMap_nil, List.not_mem_nil, false_iff]
    omega
  | plain ha _ ih => rwa [groupNumbers, List.filterMap_cons_none ha]
  | @run n m members atoms hne hmembers hatoms ih =>
    have hpos := List.length_pos_iff.mpr hne
    have hle := hatoms.le
    rw [groupNumbers_append, groupNumbers_run hmembers, List.mem_append, ih, List.mem_replicate]
    omega

/-- The first number comes first. -/
theorem head?_groupNumbers (h : Grouped n atoms m) {g : Nat}
    (hg : (groupNumbers atoms).head? = some g) : g = n := by
  induction h with
  | nil n => cases hg
  | plain ha _ ih =>
    rw [groupNumbers, List.filterMap_cons_none ha] at hg
    exact ih hg
  | @run n m members atoms hne hmembers _ _ =>
    obtain ⟨k, hk⟩ := Nat.exists_eq_succ_of_ne_zero (List.length_pos_iff.mpr hne).ne'
    rw [groupNumbers_append, groupNumbers_run hmembers, hk, List.replicate_succ] at hg
    exact (Option.some.inj hg).symm

/-- **The numbers never decrease and never skip.** -/
theorem isChain_groupNumbers (h : Grouped n atoms m) :
    (groupNumbers atoms).IsChain fun g k => k = g ∨ k = g + 1 := by
  induction h with
  | nil n => exact .nil
  | plain ha _ ih => rwa [groupNumbers, List.filterMap_cons_none ha]
  | @run n m members atoms _ hmembers hatoms ih =>
    rw [groupNumbers_append, groupNumbers_run hmembers, List.isChain_append]
    refine ⟨List.isChain_replicate_of_rel _ (Or.inl rfl), ih, fun g hg k hk => Or.inr ?_⟩
    -- where a run ends, the next number starts the next one
    have hg' := List.eq_of_mem_replicate (List.mem_of_getLast? hg)
    rw [hatoms.head?_groupNumbers hk, hg']

/-- There are as many numbers as are counted. -/
theorem card_groupNumbers (h : Grouped n atoms m) : (groupNumbers atoms).toFinset.card = m - n := by
  have hset : (groupNumbers atoms).toFinset = Finset.Ico n m := by
    ext g
    rw [List.mem_toFinset, h.mem_groupNumbers_iff, Finset.mem_Ico]
  rw [hset, Nat.card_Ico]

end Grouped

/-! ## Any two atoms -/

variable {limits : PatternLimits} {source : String} {p : Pattern}

/-- In a pattern that was read, the digit classes have groups, and nothing else has. -/
theorem exists_group_iff_isDigits (h : parse limits source = .ok p) {a : Atom}
    (ha : a ∈ p.atoms) : (∃ g, a.group = some g) ↔ a.piece.IsDigits := by
  have hsome := group_isSome_iff_of_parse h ha
  rw [Bool.eq_iff_iff, Option.isSome_iff_exists, Option.isSome_iff_exists] at hsome
  rw [hsome, Piece.isDigits_iff]

/-- In a pattern that was read, neighbours are joined. -/
theorem joined_of_parse (h : parse limits source = .ok p) {k : Nat} (hk : k + 1 < p.atoms.length) :
    Joined p.atoms[k] p.atoms[k + 1] := by
  obtain ⟨-, us, -, -, -, rfl⟩ := parse_eq_ok_iff.mp h
  have hchain := isChain_joined_numberGroups none 0 (atomsOf us) fun _ => group_of_mem_atomsOf
  exact List.isChain_iff_getElem.mp hchain k hk

/-- Atoms that continue one another are in the group of the first. -/
theorem group_eq_of_forall_continues (h : parse limits source = .ok p) {i j g : Nat} (hij : i ≤ j)
    (hj : j < p.atoms.length) (hi : p.atoms[i].group = some g)
    (hcont : ∀ k (_ : i ≤ k) (_ : k < j), Continues p.atoms[k] p.atoms[k + 1]) :
    p.atoms[j].group = some g := by
  induction j, hij using Nat.le_induction with
  | base => exact hi
  | succ j hij ih =>
    have hgroup := ih (by omega) hi fun k hik hkj => hcont k hik (by omega)
    exact (joined_of_parse h hj g hgroup).mpr (hcont j hij (by omega))

/-- **Two atoms have one group exactly if each atom from the one to the other continues the one
before it.** -/
theorem group_eq_iff_forall_continues (h : parse limits source = .ok p) {i j : Nat} (hij : i < j)
    (hj : j < p.atoms.length) (hi : p.atoms[i].piece.IsDigits) :
    p.atoms[i].group = p.atoms[j].group ↔
      ∀ k (_ : i ≤ k) (_ : k < j), Continues p.atoms[k] p.atoms[k + 1] := by
  obtain ⟨g, hg⟩ := (exists_group_iff_isDigits h (List.getElem_mem _)).mpr hi
  constructor
  · intro heq k hik hkj
    have hcount : g < p.groupCount := ((grouped_of_parse h).mem_groupNumbers_iff.mp
      (List.mem_filterMap.mpr ⟨_, List.getElem_mem _, hg⟩)).2
    -- the atoms of a group stand side by side, so those between are in it as well
    have hinside : ∀ l (_ : i ≤ l) (_ : l ≤ j), p.atoms[l].group = some g := by
      intro l hil hlj
      obtain ⟨hstart, -⟩ := (group_eq_iff_index h hcount (List.getElem?_eq_getElem _)).mp hg
      obtain ⟨-, hstop⟩ := (group_eq_iff_index h hcount (List.getElem?_eq_getElem hj)).mp
        (heq ▸ hg)
      exact (group_eq_iff_index h hcount (List.getElem?_eq_getElem _)).mpr ⟨by omega, by omega⟩
    exact (joined_of_parse h (by omega) g (hinside k hik (by omega))).mp
      (hinside (k + 1) (by omega) hkj)
  · intro hcont
    rw [hg, group_eq_of_forall_continues h hij.le hj hg hcont]

/-- **Capture groups are the maximal runs of digit classes.** In every pattern that was read, the
atoms that stand for digit classes have a group, and no others; the first of them has the group
zero, from one to the next the number stays or is the next one, and the count of groups is that of
the numbers; and two of them have one group exactly if all atoms between them stand for digit
classes as well, each one written with the letter of the atom before it or with `x`. -/
theorem groups_are_maximal (h : parse limits source = .ok p) :
    (∀ a ∈ p.atoms, (∃ g, a.group = some g) ↔ a.piece.IsDigits) ∧
      (∀ g, (groupNumbers p.atoms).head? = some g → g = 0) ∧
      ((groupNumbers p.atoms).IsChain fun g k => k = g ∨ k = g + 1) ∧
      p.groupCount = (groupNumbers p.atoms).toFinset.card ∧
      ∀ i j (_ : i < j) (_ : j < p.atoms.length),
        p.atoms[i].piece.IsDigits → p.atoms[j].piece.IsDigits →
          (p.atoms[i].group = p.atoms[j].group ↔
            ∀ k (_ : i ≤ k) (_ : k < j), Continues p.atoms[k] p.atoms[k + 1]) := by
  have hgrouped := grouped_of_parse h
  refine ⟨fun a ha => exists_group_iff_isDigits h ha, fun g => hgrouped.head?_groupNumbers,
    hgrouped.isChain_groupNumbers, ?_, ?_⟩
  · rw [hgrouped.card_groupNumbers, Nat.sub_zero]
  · intro i j hij hj hi _
    exact group_eq_iff_forall_continues h hij hj hi

/-- The pattern `N-XX+x?Z[1|2]xZ`: a letter is continued behind a quantifier, `Z` opens a group,
`x` opens one behind alternatives, and the last `Z` is in none. -/
def mixedLetters : Pattern :=
  ⟨"N-XX+x?Z[1|2]xZ",
    [⟨0, .single .restricted none, some 0⟩, ⟨1, .single (.literal '-') none, none⟩,
      ⟨2, .single .anyDigit none, some 1⟩, ⟨3, .single .anyDigit (some .oneOrMore), some 1⟩,
      ⟨5, .single .nextDigit (some .optional), some 1⟩, ⟨7, .single .nonZero none, some 2⟩,
      ⟨8, .choice [[⟨9, .literal '1'⟩], [⟨11, .literal '2'⟩]], none⟩,
      ⟨13, .single .nextDigit none, some 3⟩, ⟨14, .rest, none⟩], 4⟩

/-- The letters of a group need not be the same, as long as each continues the one before it. -/
theorem groups_are_maximal_mixedLetters :
    parse ⟨256, 32, 0⟩ "N-XX+x?Z[1|2]xZ" = .ok mixedLetters ∧
      mixedLetters.groupCount = (groupNumbers mixedLetters.atoms).toFinset.card ∧
      Continues ⟨3, .single .anyDigit (some .oneOrMore), some 1⟩
        ⟨5, .single .nextDigit (some .optional), some 1⟩ := by
  have hparse : parse ⟨256, 32, 0⟩ "N-XX+x?Z[1|2]xZ" = .ok mixedLetters := rfl
  obtain ⟨-, -, -, hcount, hpairs⟩ := groups_are_maximal hparse
  have hone := hpairs 2 4 (by decide) (by decide) ⟨_, _, rfl, rfl⟩ ⟨_, _, rfl, rfl⟩
  exact ⟨hparse, hcount, hone.mp rfl 3 (by decide) (by decide)⟩

end Pattern

end CallRouting

import CallRouting.Proofs.Captures

/-!
# Capture groups are runs of atoms

The atoms of a capture group stand side by side, and the groups follow one another from left to
right in the order of their numbers.

* **Runs** (`Grouped`): atoms of which those with a group stand in runs, one for each number from
  the first one on, with atoms without a group between them.
* **Numbering** (`numberGroups_grouped`): one step either continues the run of the atom before or
  opens the next one, so that the numbers of a whole pattern make runs (`grouped_of_parse`).
* **One group** (`Grouped.exists_isRun`): whatever stands before a run has lower numbers, and
  whatever stands behind it has higher ones. Hence the atoms of a group are those with an index from
  `groupStart` up to `groupStop` (`group_eq_iff_index`), and groups do not overlap
  (`groupStop_le_groupStart`).
-/

namespace CallRouting.Pattern

/-! ## Runs -/

/-- Atoms of which those with a group stand in runs, numbered from the first number up to, but
without, the second. -/
inductive Grouped : Nat → List Atom → Nat → Prop
  | nil (n : Nat) : Grouped n [] n
  | plain {n m : Nat} {a : Atom} {atoms : List Atom} (ha : a.group = none)
      (hatoms : Grouped n atoms m) : Grouped n (a :: atoms) m
  | run {n m : Nat} {members atoms : List Atom} (hne : members ≠ [])
      (hmembers : ∀ a ∈ members, a.group = some n) (hatoms : Grouped (n + 1) atoms m) :
      Grouped n (members ++ atoms) m

/-- Whether some atoms in the middle are those of a group: lower numbers stand before them, higher
ones behind them. -/
structure IsRun (atoms : List Atom) (group : Nat) (before members after : List Atom) : Prop where
  split : atoms = before ++ members ++ after
  nonempty : members ≠ []
  inside : ∀ a ∈ members, a.group = some group
  lower : ∀ a ∈ before, ∀ k, a.group = some k → k < group
  higher : ∀ a ∈ after, ∀ k, a.group = some k → group < k

namespace Grouped

variable {n m : Nat} {atoms : List Atom}

/-- The numbers in runs start where the first run does. -/
theorem le_group (h : Grouped n atoms m) {a : Atom} (ha : a ∈ atoms) {k : Nat}
    (hk : a.group = some k) : n ≤ k := by
  induction h with
  | nil n => cases ha
  | plain hnone _ ih =>
    rcases List.mem_cons.mp ha with rfl | ha
    · rw [hnone] at hk
      cases hk
    · exact ih ha
  | @run n m members atoms hne hmembers _ ih =>
    rcases List.mem_append.mp ha with ha | ha
    · rw [hmembers a ha] at hk
      exact (Option.some.inj hk).le
    · exact (Nat.le_succ n).trans (ih ha)

/-- **Every number has a run.** -/
theorem exists_isRun (h : Grouped n atoms m) {g : Nat} (hn : n ≤ g) (hm : g < m) :
    ∃ before members after, IsRun atoms g before members after := by
  induction h with
  | nil n => omega
  | @plain n m a atoms hnone _ ih =>
    obtain ⟨before, members, after, hsplit, hne, hin, hlow, hhigh⟩ := ih hn hm
    refine ⟨a :: before, members, after, by rw [hsplit]; rfl, hne, hin, fun b hb k hk => ?_, hhigh⟩
    rcases List.mem_cons.mp hb with rfl | hb
    · rw [hnone] at hk
      cases hk
    · exact hlow b hb k hk
  | @run n m run atoms hne hrun hatoms ih =>
    by_cases hg : g = n
    · subst hg
      refine ⟨[], run, atoms, rfl, hne, hrun, List.forall_mem_nil _, fun b hb k hk => ?_⟩
      exact hatoms.le_group hb hk
    · obtain ⟨before, members, after, hsplit, hne', hin, hlow, hhigh⟩ := ih (by omega) hm
      refine ⟨run ++ before, members, after, by rw [hsplit]; simp, hne', hin, fun b hb k hk => ?_,
        hhigh⟩
      rcases List.mem_append.mp hb with hb | hb
      · rw [hrun b hb] at hk
        obtain rfl := Option.some.inj hk
        omega
      · exact hlow b hb k hk

end Grouped

/-! ## Numbering -/

/-- **Numbering makes runs.** Where the atom before does not capture, the numbers start with the
next free one; where it does, the atoms that continue its run come first. The atoms have no group
before they are numbered. -/
theorem numberGroups_grouped (atoms : List Atom) (hnone : ∀ a ∈ atoms, a.group = none) :
    (∀ n, Grouped n (numberGroups none n atoms).1 (numberGroups none n atoms).2) ∧
      ∀ cls n, ∃ run rest, (numberGroups (some (cls, n)) (n + 1) atoms).1 = run ++ rest ∧
        (∀ a ∈ run, a.group = some n) ∧
        Grouped (n + 1) rest (numberGroups (some (cls, n)) (n + 1) atoms).2 := by
  induction atoms with
  | nil => exact ⟨fun n => .nil n, fun cls n => ⟨[], [], rfl, List.forall_mem_nil _, .nil _⟩⟩
  | cons a atoms ih =>
    obtain ⟨ha, hatoms⟩ := List.forall_mem_cons.mp hnone
    obtain ⟨ihplain, ihrun⟩ := ih hatoms
    cases hcap : a.piece.capturing? with
    | none =>
      simp only [numberGroups, hcap]
      refine ⟨fun n => .plain ha (ihplain n), fun cls n => ⟨[], _, rfl, List.forall_mem_nil _, ?_⟩⟩
      exact .plain ha (ihplain (n + 1))
    | some cls =>
      -- an atom that opens a run numbered `n`, with the atoms that continue it
      have hopen : ∀ n, Grouped n
          ({ a with group := some n } :: (numberGroups (some (cls, n)) (n + 1) atoms).1)
          (numberGroups (some (cls, n)) (n + 1) atoms).2 := by
        intro n
        obtain ⟨run, rest, hsplit, hrun, hrest⟩ := ihrun cls n
        rw [hsplit, ← List.cons_append]
        exact .run (List.cons_ne_nil _ _) (List.forall_mem_cons.mpr ⟨rfl, hrun⟩) hrest
      have hmax : ∀ n, max n (n + 1) = n + 1 := fun n => Nat.max_eq_right (Nat.le_succ n)
      simp only [numberGroups, hcap, nextGroup]
      refine ⟨fun n => by rw [hmax]; exact hopen n, fun before n => ?_⟩
      by_cases hcont : continuesGroup before cls = true
      · simp only [hcont, if_true, Nat.max_self]
        obtain ⟨run, rest, hsplit, hrun, hrest⟩ := ihrun cls n
        refine ⟨{ a with group := some n } :: run, rest, by rw [hsplit]; rfl, ?_, hrest⟩
        exact List.forall_mem_cons.mpr ⟨rfl, hrun⟩
      · simp only [hcont, Bool.false_eq_true, if_false, hmax]
        exact ⟨[], _, rfl, List.forall_mem_nil _, hopen (n + 1)⟩

variable {limits : PatternLimits} {source : String} {p : Pattern}

/-- The groups of a pattern that was read are runs, numbered from zero. -/
theorem grouped_of_parse (h : parse limits source = .ok p) : Grouped 0 p.atoms p.groupCount := by
  obtain ⟨-, us, -, -, -, rfl⟩ := parse_eq_ok_iff.mp h
  exact (numberGroups_grouped (atomsOf us) fun _ => group_of_mem_atomsOf).1 0

/-! ## One group -/

/-- The index of the first atom of a group. -/
def groupStart (p : Pattern) (group : Nat) : Nat := p.atoms.findIdx (·.group = some group)

/-- The index behind the last atom of a group. -/
def groupStop (p : Pattern) (group : Nat) : Nat :=
  p.groupStart group + (p.members group).length

namespace IsRun

variable {atoms : List Atom} {group : Nat} {before members after : List Atom}

/-- No atom outside of a run belongs to its group. -/
theorem group_ne (h : IsRun atoms group before members after) {a : Atom}
    (ha : a ∈ before ∨ a ∈ after) : a.group ≠ some group := by
  intro hgroup
  rcases ha with ha | ha
  · exact Nat.lt_irrefl _ (h.lower a ha _ hgroup)
  · exact Nat.lt_irrefl _ (h.higher a ha _ hgroup)

/-- The atoms of the group are those of the run. -/
theorem members_eq (h : IsRun p.atoms group before members after) :
    p.members group = members := by
  have hnone : ∀ l : List Atom, (∀ a ∈ l, a ∈ before ∨ a ∈ after) →
      l.filter (·.group = some group) = [] := by
    intro l hl
    refine List.filter_eq_nil_iff.mpr fun a ha => ?_
    rw [decide_eq_true_eq]
    exact h.group_ne (hl a ha)
  have hall : members.filter (·.group = some group) = members :=
    List.filter_eq_self.mpr fun a ha => decide_eq_true (h.inside a ha)
  rw [Pattern.members, h.split, List.filter_append, List.filter_append,
    hnone before fun _ => Or.inl, hnone after fun _ => Or.inr, hall, List.nil_append,
    List.append_nil]

/-- The group starts behind what stands before the run. -/
theorem groupStart_eq (h : IsRun p.atoms group before members after) :
    p.groupStart group = before.length := by
  have hbefore : before.findIdx (·.group = some group) = before.length :=
    List.findIdx_eq_length.mpr fun a ha => decide_eq_false (h.group_ne (Or.inl ha))
  have hmembers : members.findIdx (·.group = some group) = 0 := by
    obtain ⟨a, rest, hrest⟩ := List.exists_cons_of_ne_nil h.nonempty
    rw [hrest, List.findIdx_cons]
    have ha : a.group = some group := h.inside a (by rw [hrest]; exact List.mem_cons_self)
    simp [ha]
  have hpos : 0 < members.length := List.length_pos_iff.mpr h.nonempty
  rw [groupStart, h.split, List.append_assoc, List.findIdx_append, hbefore,
    if_neg (Nat.lt_irrefl _), List.findIdx_append, hmembers, if_pos hpos, Nat.zero_add]

/-- The group stops where the run does. -/
theorem groupStop_eq (h : IsRun p.atoms group before members after) :
    p.groupStop group = before.length + members.length := by
  rw [groupStop, h.groupStart_eq, h.members_eq]

end IsRun

/-- The group with a number is a run of the atoms. -/
theorem exists_isRun_of_parse (h : parse limits source = .ok p) {group : Nat}
    (hgroup : group < p.groupCount) :
    ∃ before members after, IsRun p.atoms group before members after :=
  (grouped_of_parse h).exists_isRun (Nat.zero_le _) hgroup

/-- A group has an atom, and its atoms are atoms of the pattern. -/
theorem groupStart_lt_groupStop (h : parse limits source = .ok p) {group : Nat}
    (hgroup : group < p.groupCount) :
    p.groupStart group < p.groupStop group ∧ p.groupStop group ≤ p.atoms.length := by
  obtain ⟨before, members, after, hrun⟩ := exists_isRun_of_parse h hgroup
  have hpos := List.length_pos_iff.mpr hrun.nonempty
  have hlen := congrArg List.length hrun.split
  rw [List.length_append, List.length_append] at hlen
  rw [hrun.groupStop_eq, hrun.groupStart_eq]
  omega

/-- **The atoms of a group stand side by side.** -/
theorem group_eq_iff_index (h : parse limits source = .ok p) {group : Nat}
    (hgroup : group < p.groupCount) {i : Nat} {a : Atom} (ha : p.atoms[i]? = some a) :
    a.group = some group ↔ p.groupStart group ≤ i ∧ i < p.groupStop group := by
  obtain ⟨before, members, after, hrun⟩ := exists_isRun_of_parse h hgroup
  rw [hrun.groupStop_eq, hrun.groupStart_eq]
  rw [hrun.split, List.append_assoc] at ha
  rcases Nat.lt_or_ge i before.length with hi | hi
  · rw [List.getElem?_append_left hi] at ha
    have hne := hrun.group_ne (Or.inl (List.mem_of_getElem? ha))
    exact iff_of_false hne (by omega)
  rw [List.getElem?_append_right hi] at ha
  rcases Nat.lt_or_ge (i - before.length) members.length with hi' | hi'
  · rw [List.getElem?_append_left hi'] at ha
    exact iff_of_true (hrun.inside a (List.mem_of_getElem? ha)) (by omega)
  · rw [List.getElem?_append_right hi'] at ha
    have hne := hrun.group_ne (Or.inr (List.mem_of_getElem? ha))
    exact iff_of_false hne (by omega)

/-- **A group stops before the groups with higher numbers start.** -/
theorem groupStop_le_groupStart (h : parse limits source = .ok p) {g k : Nat} (hgk : g < k)
    (hk : k < p.groupCount) : p.groupStop g ≤ p.groupStart k := by
  obtain ⟨hstart, hstop⟩ := groupStart_lt_groupStop h hk
  obtain ⟨before, members, after, hrun⟩ := exists_isRun_of_parse h (hgk.trans hk)
  -- otherwise the first atom of the group with the higher number stands at or before the last
  -- atom of the lower one
  by_contra hlt
  rw [hrun.groupStop_eq] at hlt
  obtain ⟨a, hget⟩ : ∃ a, p.atoms[p.groupStart k]? = some a :=
    ⟨_, List.getElem?_eq_getElem (by omega)⟩
  have hgroup := (group_eq_iff_index h hk hget).mpr ⟨le_rfl, hstart⟩
  rw [hrun.split, List.getElem?_append_left (by rw [List.length_append]; omega)] at hget
  rcases List.mem_append.mp (List.mem_of_getElem? hget) with hmem | hmem
  · exact absurd (hrun.lower _ hmem _ hgroup) (by omega)
  · rw [hrun.inside _ hmem] at hgroup
    exact absurd (Option.some.inj hgroup) (by omega)

end CallRouting.Pattern

import CallRouting.Pattern.Basic

/-!
# What an atom can take

Each atom of a pattern takes characters from the front of the text that is left. A class takes as
many characters as its bounds allow, a group one of its alternatives, and the last atom may take
all. The ways to take are listed with the most wanted one first: more characters before fewer, an
earlier alternative before a later one.
-/

namespace CallRouting

/-- A way to take characters: their count, and what is left after them. -/
structure Take where
  count : Nat
  left : List Char
  deriving DecidableEq, Repr

/-- The ways to take accepted characters from the front, at most `room` of them, fewest first;
`taken` were taken before. -/
def stretches (accepts : Char → Bool) : Nat → Nat → List Char → List Take
  | 0, taken, cs => [⟨taken, cs⟩]
  | _ + 1, taken, [] => [⟨taken, []⟩]
  | room + 1, taken, c :: rest =>
    ⟨taken, c :: rest⟩ :: if accepts c then stretches accepts room (taken + 1) rest else []

/-- A stretch holds accepted characters only, keeps within the room and leaves what follows it,
and every such stretch is listed. -/
theorem mem_stretches {accepts : Char → Bool} {room taken : Nat} {cs : List Char} {t : Take} :
    t ∈ stretches accepts room taken cs ↔
      ∃ n ≤ room, n ≤ cs.length ∧ (cs.take n).all accepts = true ∧
        t = ⟨taken + n, cs.drop n⟩ := by
  induction room generalizing taken cs with
  | zero =>
    simp only [stretches, List.mem_singleton, Nat.le_zero_eq, exists_eq_left]
    simp
  | succ room ih =>
    cases cs with
    | nil =>
      simp only [stretches, List.mem_singleton]
      constructor
      · rintro rfl
        exact ⟨0, by simp⟩
      · rintro ⟨n, -, hn, -, rfl⟩
        simp_all
    | cons c rest =>
      simp only [stretches, List.mem_cons]
      constructor
      · rintro (rfl | h)
        · exact ⟨0, by simp⟩
        · split at h
          · obtain ⟨n, hr, hl, ha, rfl⟩ := ih.1 h
            exact ⟨n + 1, by omega, by simp [hl], by simp_all, by simp; omega⟩
          · cases h
      · rintro ⟨n, hr, hl, ha, rfl⟩
        cases n with
        | zero => simp
        | succ n =>
          right
          simp only [List.take_succ_cons, List.all_cons, Bool.and_eq_true] at ha
          simp only [ha.1, if_true]
          exact ih.2 ⟨n, by omega, by simpa using hl, ha.2, by simp; omega⟩

/-- Takes one alternative of a group, if the text starts with characters that it accepts. -/
def takeAlternative (slots : List Slot) (cs : List Char) : Option Take :=
  match slots, cs with
  | [], cs => some ⟨0, cs⟩
  | _ :: _, [] => none
  | slot :: slots, c :: rest =>
    if slot.cls.accepts c then
      (takeAlternative slots rest).map fun t => { t with count := t.count + 1 }
    else none

/-- An alternative takes as many characters as it has classes, each one accepted. -/
theorem takeAlternative_eq_some_iff {slots : List Slot} {cs : List Char} {t : Take} :
    takeAlternative slots cs = some t ↔
      slots.length ≤ cs.length ∧ (slots.zip cs).all (fun p => p.1.cls.accepts p.2) = true ∧
        t = ⟨slots.length, cs.drop slots.length⟩ := by
  induction slots generalizing cs t with
  | nil => simp [takeAlternative, eq_comm]
  | cons slot slots ih =>
    cases cs with
    | nil => simp [takeAlternative]
    | cons c rest =>
      simp only [takeAlternative]
      split
      · rename_i h
        simp only [Option.map_eq_some_iff, ih, List.length_cons, List.zip_cons_cons, List.all_cons,
          h, Bool.true_and, List.drop_succ_cons, Nat.add_le_add_iff_right]
        constructor
        · rintro ⟨u, ⟨hl, ha, rfl⟩, rfl⟩
          exact ⟨hl, ha, rfl⟩
        · rintro ⟨hl, ha, rfl⟩
          exact ⟨_, ⟨hl, ha, rfl⟩, rfl⟩
      · rename_i h
        simp [h]

/-- The ways a piece can take from the front of a text, most wanted first. -/
def Piece.takes : Piece → List Char → List Take
  | .single cls q, cs =>
    let bounds := Bounds.ofQuantifier? q
    ((stretches cls.accepts (bounds.high.getD cs.length) 0 cs).drop bounds.low).reverse
  | .choice alternatives, cs => alternatives.filterMap (takeAlternative · cs)
  | .rest, cs => [⟨cs.length, []⟩]

end CallRouting

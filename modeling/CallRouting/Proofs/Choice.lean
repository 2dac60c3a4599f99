import CallRouting.Pattern.Takes
import Mathlib.Data.List.Forall2
import Mathlib.Data.List.Nodup
import Mathlib.Tactic.IntervalCases

/-!
# Choices

What a piece may take, said without the search. A *choice* at a piece is the count of characters
for a class, the index of an alternative for a group, and nothing for the piece that takes all that
is left; `Piece.Chooses` says which characters a choice stands for. Choices are ordered by what is
wanted more (`Choice.Before`): more characters before fewer, an earlier alternative before a later
one.

The ways to take that the search tries at a piece (`Piece.takes`) are exactly the choices that the
text allows (`mem_options_iff`), with the wanted ones first (`pairwise_options`).
-/

namespace CallRouting

/-! ## Characters of a class -/

/-- Whether a character is one that a class stands for, with the digits of the digit classes listed
one by one. -/
def CharClass.Holds : CharClass → Char → Prop
  | restricted, c => c ∈ ['2', '3', '4', '5', '6', '7', '8', '9']
  | anyDigit, c | nextDigit, c => c ∈ ['0', '1', '2', '3', '4', '5', '6', '7', '8', '9']
  | nonZero, c => c ∈ ['1', '2', '3', '4', '5', '6', '7', '8', '9']
  | wildcard, _ => True
  | literal l, c => c = l

/-- A range of ASCII digits, as bounds on the code point. -/
theorem char_range_iff {a b c : Char} :
    (decide (a ≤ c) && decide (c ≤ b)) = true ↔ a.toNat ≤ c.toNat ∧ c.toNat ≤ b.toNat := by
  rw [Bool.and_eq_true, decide_eq_true_eq, decide_eq_true_eq, Char.le_def, Char.le_def,
    UInt32.le_iff_toNat_le, UInt32.le_iff_toNat_le]
  rfl

/-- A class accepts the characters that it stands for. -/
theorem CharClass.accepts_iff {cls : CharClass} {c : Char} :
    cls.accepts c = true ↔ cls.Holds c := by
  have key : ∀ a b : Char, ∀ l : List Char,
      (∀ n, a.toNat ≤ n → n ≤ b.toNat → Char.ofNat n ∈ l) →
      (∀ d ∈ l, a.toNat ≤ d.toNat ∧ d.toNat ≤ b.toNat) →
      ((decide (a ≤ c) && decide (c ≤ b)) = true ↔ c ∈ l) := by
    intro a b l hall hin
    rw [char_range_iff]
    refine ⟨fun h => ?_, hin c⟩
    have := hall c.toNat h.1 h.2
    rwa [Char.ofNat_toNat] at this
  cases cls with
  | restricted =>
    refine key '2' '9' _ (fun n h₁ h₂ => ?_) (by simp)
    change 50 ≤ n at h₁
    change n ≤ 57 at h₂
    interval_cases n <;> decide
  | anyDigit | nextDigit =>
    refine key '0' '9' _ (fun n h₁ h₂ => ?_) (by simp)
    change 48 ≤ n at h₁
    change n ≤ 57 at h₂
    interval_cases n <;> decide
  | nonZero =>
    refine key '1' '9' _ (fun n h₁ h₂ => ?_) (by simp)
    change 49 ≤ n at h₁
    change n ≤ 57 at h₂
    interval_cases n <;> decide
  | wildcard => simp [accepts, Holds]
  | literal l => simp [accepts, Holds]

namespace CharClass

/-- A character of a class: its own one if there is just one, else the one given. -/
def sample (c : Char) : CharClass → Char
  | literal l => l
  | restricted | anyDigit | nextDigit | nonZero | wildcard => c

/-- A class without a character of its own holds 2 and 9. -/
theorem holds_sample {c : Char} (hc : c = '2' ∨ c = '9') (cls : CharClass) :
    cls.Holds (cls.sample c) := by
  cases cls with
  | wildcard => trivial
  | literal l => rfl
  | restricted | anyDigit | nextDigit | nonZero =>
    rcases hc with rfl | rfl <;> simp [Holds, sample]

end CharClass

/-! ## Choices at a piece -/

/-- What is chosen at a piece. -/
inductive Choice where
  | count (n : Nat)
  | alternative (index : Nat)
  | rest
  deriving DecidableEq, Repr

/-- Whether a choice is wanted more than another one at the same piece. -/
def Choice.Before : Choice → Choice → Prop
  | count m, count n => n < m
  | alternative i, alternative j => i < j
  | _, _ => False

/-- No choice is wanted more than one that is wanted more than it. -/
instance : Std.Asymm Choice.Before where
  asymm a b h h' := by
    cases a <;> cases b <;> simp only [Choice.Before] at h h'
    all_goals omega

/-- Whether a choice at a piece can stand for some characters. -/
def Piece.Chooses : Piece → Choice → List Char → Prop
  | .single cls q, .count n, s =>
    s.length = n ∧ (Bounds.ofQuantifier? q).Holds n ∧ ∀ c ∈ s, cls.Holds c
  | .choice alternatives, .alternative i, s =>
    ∃ a, alternatives[i]? = some a ∧ List.Forall₂ (fun slot c => slot.cls.Holds c) a s
  | .rest, .rest, _ => True
  | _, _, _ => False

/-- Whether a piece can stand for some characters: a class for a number of its characters within
the bounds, a group for what one of its alternatives accepts character by character, and the piece
that takes all that is left for anything. -/
def Piece.Admits : Piece → List Char → Prop
  | .single cls q, s => (Bounds.ofQuantifier? q).Holds s.length ∧ ∀ c ∈ s, cls.Holds c
  | .choice alternatives, s =>
    ∃ a ∈ alternatives, List.Forall₂ (fun slot c => slot.cls.Holds c) a s
  | .rest, _ => True

/-- A piece stands for some characters if a choice does. -/
theorem Piece.admits_iff {piece : Piece} {s : List Char} :
    piece.Admits s ↔ ∃ choice, piece.Chooses choice s := by
  cases piece with
  | single cls q =>
    constructor
    · rintro ⟨hb, hc⟩
      exact ⟨.count s.length, rfl, hb, hc⟩
    · rintro ⟨choice, h⟩
      cases choice with
      | count n =>
        obtain ⟨rfl, hb, hc⟩ := h
        exact ⟨hb, hc⟩
      | alternative | rest => exact absurd h id
  | choice alternatives =>
    constructor
    · rintro ⟨a, ha, hs⟩
      obtain ⟨i, hi⟩ := List.mem_iff_getElem?.mp ha
      exact ⟨.alternative i, a, hi, hs⟩
    · rintro ⟨choice, h⟩
      cases choice with
      | alternative i =>
        obtain ⟨a, hi, hs⟩ := h
        exact ⟨a, List.mem_of_getElem? hi, hs⟩
      | count | rest => exact absurd h id
  | rest => exact ⟨fun _ => ⟨.rest, trivial⟩, fun _ => trivial⟩

/-! ## Stretches in closed form -/

/-- The stretches are the beginnings of the text up to the first character that is not accepted or
for which there is no room, the shortest one first. -/
theorem stretches_eq (accepts : Char → Bool) (room taken : Nat) (cs : List Char) :
    stretches accepts room taken cs =
      (List.range (((cs.take room).takeWhile accepts).length + 1)).map
        fun n => ⟨taken + n, cs.drop n⟩ := by
  induction room generalizing taken cs with
  | zero => simp [stretches]
  | succ room ih =>
    cases cs with
    | nil => simp [stretches]
    | cons c rest =>
      by_cases hc : accepts c = true
      · rw [stretches, if_pos hc, ih, List.take_succ_cons, List.takeWhile_cons_of_pos hc,
          List.length_cons, List.range_succ_eq_map (n := (List.takeWhile _ _).length + 1)]
        simp [Nat.add_assoc, Nat.add_comm 1]
      · simp [stretches, hc]

/-- The stretches with a least count of characters, the longest one first. -/
theorem mem_reverse_drop_stretches {accepts : Char → Bool} {room low : Nat} {cs : List Char}
    {t : Take} :
    t ∈ ((stretches accepts room 0 cs).drop low).reverse ↔
      low ≤ t.count ∧ t.count ≤ room ∧ t.count ≤ cs.length ∧
        (∀ c ∈ cs.take t.count, accepts c = true) ∧ t.left = cs.drop t.count := by
  have hall : t ∈ stretches accepts room 0 cs ↔
      t.count ≤ room ∧ t.count ≤ cs.length ∧ (∀ c ∈ cs.take t.count, accepts c = true) ∧
        t.left = cs.drop t.count := by
    rw [mem_stretches]
    constructor
    · rintro ⟨n, hr, hl, ha, rfl⟩
      simpa [hr, hl] using ha
    · rintro ⟨hr, hl, ha, hleft⟩
      refine ⟨t.count, hr, hl, List.all_eq_true.mpr ha, ?_⟩
      rw [Nat.zero_add, ← hleft]
  rw [← hall, List.mem_reverse, stretches_eq, ← List.map_drop]
  simp only [List.mem_map, Nat.zero_add, List.range_eq_range', List.drop_range', List.mem_range']
  constructor
  · rintro ⟨n, ⟨i, hi, rfl⟩, rfl⟩
    exact ⟨by simp, _, ⟨low + i, by omega, by omega⟩, rfl⟩
  · rintro ⟨hlow, n, ⟨i, hi, rfl⟩, rfl⟩
    exact ⟨_, ⟨i - low, by simp at hlow; omega, by simp at hlow ⊢; omega⟩, rfl⟩

/-! ## Options -/

/-- The ways to take that the search tries at a piece, each with the choice it stands for. -/
def Piece.options : Piece → List Char → List (Choice × Take)
  | .single cls q, cs => ((Piece.single cls q).takes cs).map fun t => (.count t.count, t)
  | .choice alternatives, cs =>
    alternatives.zipIdx.filterMap fun p =>
      (takeAlternative p.1 cs).map fun t => (.alternative p.2, t)
  | .rest, cs => [(.rest, ⟨cs.length, []⟩)]

/-- Without the choices, the options are the ways to take. -/
theorem Piece.map_snd_options (piece : Piece) (cs : List Char) :
    (piece.options cs).map (·.2) = piece.takes cs := by
  cases piece with
  | single cls q => simp [options, Function.comp_def]
  | choice alternatives =>
    have key : ∀ n, ((alternatives.zipIdx n).filterMap fun p =>
        (takeAlternative p.1 cs).map fun t => (Choice.alternative p.2, t)).map (·.2) =
        alternatives.filterMap (takeAlternative · cs) := by
      induction alternatives with
      | nil => simp
      | cons a rest ih =>
        intro n
        cases ha : takeAlternative a cs with
        | none => simp [ha, ih]
        | some t => simp [ha, ih]
    exact key 0
  | rest => rfl

/-- An alternative can be taken from the front exactly if it accepts what it would take. -/
theorem takeAlternative_eq_some_iff_forall₂ {slots : List Slot} {cs : List Char} {t : Take} :
    takeAlternative slots cs = some t ↔
      t.count ≤ cs.length ∧ t.left = cs.drop t.count ∧
        List.Forall₂ (fun slot c => slot.cls.Holds c) slots (cs.take t.count) := by
  have key : ∀ slots : List Slot, ∀ cs : List Char,
      (slots.length ≤ cs.length ∧ (slots.zip cs).all (fun p => p.1.cls.accepts p.2) = true) ↔
        List.Forall₂ (fun slot c => slot.cls.Holds c) slots (cs.take slots.length) := by
    intro slots
    induction slots with
    | nil => simp
    | cons slot slots ih =>
      intro cs
      cases cs with
      | nil => simp
      | cons c cs =>
        simp only [List.length_cons, List.take_succ_cons, List.forall₂_cons, ← ih,
          List.zip_cons_cons, List.all_cons, Bool.and_eq_true, CharClass.accepts_iff,
          Nat.add_le_add_iff_right]
        tauto
  rw [takeAlternative_eq_some_iff, ← and_assoc, key]
  constructor
  · rintro ⟨hf, rfl⟩
    exact ⟨((key slots cs).mpr hf).1, rfl, hf⟩
  · rintro ⟨hl, hleft, hf⟩
    have hcount : slots.length = t.count := by
      rw [hf.length_eq, List.length_take, Nat.min_eq_left hl]
    rw [hcount]
    exact ⟨hf, by rw [← hleft]⟩

/-- **The options are the choices that the text allows.** -/
theorem Piece.mem_options_iff {piece : Piece} {cs : List Char} {choice : Choice} {t : Take} :
    (choice, t) ∈ piece.options cs ↔
      t.count ≤ cs.length ∧ t.left = cs.drop t.count ∧ piece.Chooses choice (cs.take t.count) ∧
        (piece = .rest → t.count = cs.length) := by
  cases piece with
  | single cls q =>
    have hbounds : ∀ n, n ≤ cs.length → ((Bounds.ofQuantifier? q).Holds n ↔
        (Bounds.ofQuantifier? q).low ≤ n ∧ n ≤ (Bounds.ofQuantifier? q).high.getD cs.length) := by
      intro n hn
      unfold Bounds.Holds
      cases (Bounds.ofQuantifier? q).high with
      | none => simp [hn]
      | some h => simp
    simp only [options, List.mem_map, Prod.mk.injEq, reduceCtorEq, false_implies, and_true]
    constructor
    · rintro ⟨t, ht, rfl, rfl⟩
      obtain ⟨hlow, hroom, hlen, hacc, hleft⟩ := mem_reverse_drop_stretches.mp ht
      refine ⟨hlen, hleft, by simp [hlen], (hbounds _ hlen).mpr ⟨hlow, hroom⟩, ?_⟩
      exact fun c hc => CharClass.accepts_iff.mp (hacc c hc)
    · rintro ⟨hlen, hleft, hch⟩
      cases choice with
      | count n =>
        obtain ⟨rfl, hb, hc⟩ := hch
        rw [List.length_take, Nat.min_eq_left hlen] at hb ⊢
        obtain ⟨hlow, hroom⟩ := (hbounds _ hlen).mp hb
        refine ⟨t, mem_reverse_drop_stretches.mpr ⟨hlow, hroom, hlen, ?_, hleft⟩, rfl, rfl⟩
        exact fun c hmem => CharClass.accepts_iff.mpr (hc c hmem)
      | alternative | rest => exact absurd hch id
  | choice alternatives =>
    simp only [options, List.mem_filterMap, Option.map_eq_some_iff, Prod.mk.injEq, reduceCtorEq,
      false_implies, and_true]
    constructor
    · rintro ⟨⟨a, i⟩, hmem, t, ht, rfl, rfl⟩
      obtain ⟨hlen, hleft, hf⟩ := takeAlternative_eq_some_iff_forall₂.mp ht
      exact ⟨hlen, hleft, a, List.mk_mem_zipIdx_iff_getElem?.mp hmem, hf⟩
    · rintro ⟨hlen, hleft, hch⟩
      cases choice with
      | alternative i =>
        obtain ⟨a, ha, hf⟩ := hch
        exact ⟨(a, i), List.mk_mem_zipIdx_iff_getElem?.mpr ha, t,
          takeAlternative_eq_some_iff_forall₂.mpr ⟨hlen, hleft, hf⟩, rfl, rfl⟩
      | count | rest => exact absurd hch id
  | rest =>
    obtain ⟨count, left⟩ := t
    simp only [options, List.mem_singleton, Prod.mk.injEq, Take.mk.injEq, true_implies]
    constructor
    · rintro ⟨rfl, rfl, rfl⟩
      simp [Chooses]
    · rintro ⟨hlen, rfl, hch, rfl⟩
      cases choice with
      | rest => simp
      | count | alternative => exact absurd hch id

/-- **The wanted options come first.** -/
theorem Piece.pairwise_options (piece : Piece) (cs : List Char) :
    (piece.options cs).Pairwise fun a b => a.1.Before b.1 := by
  cases piece with
  | single cls q =>
    simp only [options, takes, List.pairwise_map, List.pairwise_reverse]
    refine List.Pairwise.drop ?_
    rw [stretches_eq, List.pairwise_map]
    exact List.pairwise_lt_range.imp fun h => by simpa [Choice.Before] using h
  | choice alternatives =>
    simp only [options, List.pairwise_filterMap]
    have hidx : alternatives.zipIdx.Pairwise fun a b => a.2 < b.2 := by
      rw [← List.pairwise_map (f := Prod.snd), List.zipIdx_map_snd]
      exact List.pairwise_lt_range'
    refine hidx.imp ?_
    rintro a b hab o ho o' ho'
    obtain ⟨t, -, rfl⟩ := Option.map_eq_some_iff.mp ho
    obtain ⟨t', -, rfl⟩ := Option.map_eq_some_iff.mp ho'
    exact hab
  | rest => exact List.pairwise_singleton ..

/-- A choice is listed once. -/
theorem Piece.eq_of_mem_options {piece : Piece} {cs : List Char} {choice : Choice} {t t' : Take}
    (h : (choice, t) ∈ piece.options cs) (h' : (choice, t') ∈ piece.options cs) : t = t' := by
  have hnodup : ((piece.options cs).map Prod.fst).Nodup := by
    rw [List.Nodup, List.pairwise_map]
    refine (piece.pairwise_options cs).imp fun {a b} hab heq => ?_
    rw [heq] at hab
    exact asymm hab hab
  exact congrArg Prod.snd (List.inj_on_of_nodup_map hnodup h h' rfl)

end CallRouting

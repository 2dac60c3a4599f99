import CallRouting.Pattern.Scan
import Mathlib.Data.List.Induction

/-!
# The grammar of patterns

The text of a pattern is a sequence of *phrases*: a character, with a quantifier behind it or
without, or a bracketed group of alternatives. This module says when a phrase is well formed, how
it is written (`Phrase.text`) and which atom stands for it (`Phrase.atom`), without mention of the
reader. `CallRouting.Proofs.Grammar` shows that the reader accepts exactly the texts of well-formed
phrases and answers with their atoms.
-/

namespace CallRouting.Pattern

/-! ## Phrases -/

/-- A phrase of a pattern's text. -/
inductive Phrase where
  /-- A character, and the quantifier behind it if there is one. -/
  | plain (c : Char) (quantifier : Option Quantifier)
  /-- A group, with its alternatives as they stand between the bars. -/
  | group (alternatives : List (List Char))
  deriving DecidableEq, Repr

/-- The characters that stand for something else than a phrase of their own. -/
def reserved : List Char := ['+', '?', '*', '[', ']', '|']

/-- What may stand between the bars of a group: no bracket and no bar, and at least one character
besides parentheses. -/
structure IsAlternative (a : List Char) : Prop where
  unreserved : ∀ c ∈ a, c ≠ '[' ∧ c ≠ ']' ∧ c ≠ '|'
  filled : ∃ c ∈ a, c ≠ '(' ∧ c ≠ ')'

instance (a : List Char) : Decidable (IsAlternative a) :=
  decidable_of_iff
    (a.all (fun c => c ≠ '[' && c ≠ ']' && c ≠ '|') = true ∧
      a.any (fun c => c ≠ '(' && c ≠ ')') = true)
    ⟨fun h => ⟨by simpa [and_assoc] using h.1, by simpa using h.2⟩,
      fun h => ⟨by simpa [and_assoc] using h.unreserved, by simpa using h.filled⟩⟩

namespace Phrase

/-- A phrase is well formed if its character is not reserved or, for a group, if there are at least
two alternatives and all of them are in order. -/
def WellFormed : Phrase → Prop
  | plain c _ => c ∉ reserved
  | group alternatives => 2 ≤ alternatives.length ∧ ∀ a ∈ alternatives, IsAlternative a

instance : DecidablePred WellFormed
  | plain c _ => inferInstanceAs (Decidable (c ∉ reserved))
  | group alternatives => inferInstanceAs
      (Decidable (2 ≤ alternatives.length ∧ ∀ a ∈ alternatives, IsAlternative a))

/-- A phrase as it is written. -/
def text : Phrase → List Char
  | plain c quantifier => c :: (quantifier.map Quantifier.token).toList
  | group alternatives => '[' :: (['|'].intercalate alternatives ++ [']'])

/-- Whether a quantifier stands behind the phrase; a group never has one. -/
def isQuantified : Phrase → Bool
  | plain _ quantifier => quantifier.isSome
  | group _ => false

end Phrase

/-- The text of a sequence of phrases. -/
def textOf (phrases : List Phrase) : List Char := phrases.flatMap Phrase.text

@[simp] theorem textOf_nil : textOf [] = [] := rfl

@[simp] theorem textOf_append (us vs : List Phrase) : textOf (us ++ vs) = textOf us ++ textOf vs :=
  List.flatMap_append ..

@[simp] theorem textOf_cons (u : Phrase) (us : List Phrase) :
    textOf (u :: us) = u.text ++ textOf us := rfl

/-- A phrase is written with one character at least. -/
theorem Phrase.text_ne_nil (u : Phrase) : u.text ≠ [] := by
  cases u <;> simp [Phrase.text]

/-- Only the empty sequence has an empty text. -/
theorem textOf_eq_nil_iff {us : List Phrase} : textOf us = [] ↔ us = [] := by
  cases us with
  | nil => simp
  | cons u us => simp [u.text_ne_nil]

/-! ## Texts around a character -/

/-- What a text has at the length of its beginning. -/
theorem getElem?_of_split {cs before after : List Char} {c : Char} (h : cs = before ++ c :: after) :
    cs[before.length]? = some c := by
  rw [h, List.getElem?_append_right (Nat.le_refl _), Nat.sub_self, List.getElem?_cons_zero]

/-- The beginnings of a text up to a character, and up to and including it. -/
theorem take_of_split {cs before after : List Char} {c : Char} (h : cs = before ++ c :: after) :
    cs.take before.length = before ∧ cs.take (before.length + 1) = before ++ [c] := by
  constructor
  · rw [h, List.take_left]
  · have hmore : cs = before ++ [c] ++ after := by rw [h, List.append_assoc, List.singleton_append]
    rw [hmore, List.take_left' (by rw [List.length_append, List.length_singleton])]

/-- What a text has behind a character. -/
theorem drop_of_split {cs before after : List Char} {c : Char} (h : cs = before ++ c :: after) :
    cs.drop (before.length + 1) = after := by
  rw [h, ← List.drop_drop, List.drop_left, List.drop_one, List.tail_cons]

/-! ## Atoms -/

/-- The classes of an alternative, with their positions; parentheses are left out. -/
def slotsAt : Nat → List Char → List Slot
  | _, [] => []
  | n, c :: rest =>
    if c = '(' ∨ c = ')' then slotsAt (n + 1) rest else ⟨n, .ofToken c⟩ :: slotsAt (n + 1) rest

/-- The alternatives of a group, the first of which starts at a position. -/
def alternativesAt : Nat → List (List Char) → List (List Slot)
  | _, [] => []
  | n, a :: rest => slotsAt n a :: alternativesAt (n + a.length + 1) rest

/-- The piece that a phrase at a position stands for. -/
def Phrase.piece (position : Nat) : Phrase → Piece
  | plain c quantifier => .single (.ofToken c) quantifier
  | group alternatives => .choice (alternativesAt (position + 1) alternatives)

/-- The atom that a phrase at a position stands for. -/
def Phrase.atom (position : Nat) (u : Phrase) : Atom := ⟨position, u.piece position, none⟩

/-- The atoms of a sequence of phrases, the first of which stands at a position. -/
def layout : Nat → List Phrase → List Atom
  | _, [] => []
  | n, u :: us => u.atom n :: layout (n + u.text.length) us

/-- The atoms of two sequences, one after the other. -/
theorem layout_append (n : Nat) (us vs : List Phrase) :
    layout n (us ++ vs) = layout n us ++ layout (n + (textOf us).length) vs := by
  induction us generalizing n with
  | nil => simp [layout]
  | cons u us ih => simp [layout, ih, Nat.add_assoc]

/-- There is one atom for each phrase. -/
@[simp] theorem length_layout (n : Nat) (us : List Phrase) : (layout n us).length = us.length := by
  induction us generalizing n with
  | nil => rfl
  | cons u us ih => simp [layout, ih]

/-- An alternative has no class exactly if it holds parentheses only. -/
theorem slotsAt_eq_nil_iff {n : Nat} {a : List Char} :
    slotsAt n a = [] ↔ ∀ c ∈ a, c = '(' ∨ c = ')' := by
  induction a generalizing n with
  | nil => simp [slotsAt]
  | cons c rest ih =>
    by_cases h : c = '(' ∨ c = ')'
    · simp [slotsAt, h, ih]
    · simp [slotsAt, h]

/-- There are as many alternatives as texts of alternatives. -/
@[simp] theorem length_alternativesAt (n : Nat) (alternatives : List (List Char)) :
    (alternativesAt n alternatives).length = alternatives.length := by
  induction alternatives generalizing n with
  | nil => rfl
  | cons a rest ih => simp [alternativesAt, ih]

/-- No alternative is without a class exactly if each holds more than parentheses. -/
theorem any_isEmpty_alternativesAt {n : Nat} {alternatives : List (List Char)} :
    (alternativesAt n alternatives).any List.isEmpty = false ↔
      ∀ a ∈ alternatives, ∃ c ∈ a, c ≠ '(' ∧ c ≠ ')' := by
  induction alternatives generalizing n with
  | nil => simp [alternativesAt]
  | cons a rest ih =>
    have key : (slotsAt n a).isEmpty = false ↔ ∃ c ∈ a, c ≠ '(' ∧ c ≠ ')' := by
      rw [List.isEmpty_eq_false_iff, ne_eq, slotsAt_eq_nil_iff]
      push Not
      rfl
    simp only [alternativesAt, List.any_cons, Bool.or_eq_false_iff, ih, key, List.forall_mem_cons]

end CallRouting.Pattern

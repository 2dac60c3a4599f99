import CallRouting.Text.Digit

/-!
# Number patterns

A number pattern says, character by character, what a telephone number may look like:

* `N` is a digit from 2 to 9, `X` and `x` any digit, and `Z` a digit from 1 to 9 or, as the last
  thing in the pattern, whatever is left of the number;
* `.` is any character;
* `[a|b]` is one of the alternatives listed, in which letters and the point keep their meaning;
* `+`, `?` and `*` let what stands before them occur at least once, at most once, or any number
  of times;
* every other character stands for itself.

The digit classes capture what they stand for. Neighbours with the same letter share a capture
group, and `x` continues the group of the digit class before it, so that `NxxXXXX` has the groups
`Nxx` and `XXXX`.

This module holds the pattern as a value; it is read from its text in `CallRouting.Pattern.Scan`.
-/

namespace CallRouting

/-! ## Character classes -/

/-- The classes of characters that a pattern can ask for. -/
inductive CharClass where
  /-- A digit from 2 to 9. -/
  | restricted
  /-- Any digit. -/
  | anyDigit
  /-- Any digit, which continues the capture group before it. -/
  | nextDigit
  /-- A digit from 1 to 9. -/
  | nonZero
  /-- Any character. -/
  | wildcard
  /-- One character only. -/
  | literal (c : Char)
  deriving DecidableEq, Repr

namespace CharClass

/-- The class that a character of a pattern stands for. -/
def ofToken (c : Char) : CharClass :=
  if c = 'N' then .restricted
  else if c = 'X' then .anyDigit
  else if c = 'x' then .nextDigit
  else if c = 'Z' then .nonZero
  else if c = '.' then .wildcard
  else .literal c

/-- The character that stands for a class. -/
def token : CharClass → Char
  | restricted => 'N'
  | anyDigit => 'X'
  | nextDigit => 'x'
  | nonZero => 'Z'
  | wildcard => '.'
  | literal c => c

/-- Whether a class holds a character. -/
def accepts : CharClass → Char → Bool
  | restricted, c => '2' ≤ c && c ≤ '9'
  | anyDigit, c | nextDigit, c => Text.isDialDigit c
  | nonZero, c => '1' ≤ c && c ≤ '9'
  | wildcard, _ => true
  | literal l, c => c = l

/-- Whether a class is one of the digit classes, which capture. -/
def isDigitClass : CharClass → Bool
  | restricted | anyDigit | nextDigit | nonZero => true
  | wildcard | literal _ => false

/-- A class is written as the character it was read from. -/
@[simp] theorem token_ofToken (c : Char) : (ofToken c).token = c := by
  unfold ofToken
  repeat' split
  all_goals simp_all [token]

/-- A digit class holds digits only. -/
theorem isDialDigit_of_accepts {cls : CharClass} {c : Char} (h : cls.isDigitClass = true)
    (hc : cls.accepts c = true) : Text.isDialDigit c = true := by
  cases cls <;> simp_all [isDigitClass, accepts, Text.isDialDigit, Char.le_def] <;>
    exact UInt32.le_trans (by decide) hc.1

end CharClass

/-! ## Quantifiers -/

/-- How often the class before it may occur. -/
inductive Quantifier where
  | oneOrMore
  | optional
  | anyNumber
  deriving DecidableEq, Repr

namespace Quantifier

/-- The quantifier that a character stands for, if it is one. -/
def ofToken? (c : Char) : Option Quantifier :=
  if c = '+' then some .oneOrMore
  else if c = '?' then some .optional
  else if c = '*' then some .anyNumber
  else none

/-- The character that stands for a quantifier. -/
def token : Quantifier → Char
  | oneOrMore => '+'
  | optional => '?'
  | anyNumber => '*'

/-- Reading a character as a quantifier and writing it again changes nothing. -/
theorem ofToken?_eq_some_iff {c : Char} {q : Quantifier} : ofToken? c = some q ↔ c = q.token := by
  unfold ofToken?
  constructor
  · intro h
    repeat' split at h
    all_goals simp_all [token]
    all_goals subst h; rfl
  · rintro rfl
    cases q <;> rfl

end Quantifier

/-- The least and the greatest count of occurrences; no greatest one where it is open. -/
structure Bounds where
  low : Nat
  high : Option Nat
  deriving DecidableEq, Repr

/-- The bounds of a class with or without a quantifier. -/
def Bounds.ofQuantifier? : Option Quantifier → Bounds
  | none => ⟨1, some 1⟩
  | some .oneOrMore => ⟨1, none⟩
  | some .optional => ⟨0, some 1⟩
  | some .anyNumber => ⟨0, none⟩

/-- Whether a count lies within the bounds. -/
def Bounds.Holds (b : Bounds) (n : Nat) : Prop := b.low ≤ n ∧ ∀ h ∈ b.high, n ≤ h

/-! ## Atoms -/

/-- A character class and the place in the pattern it was read from. -/
structure Slot where
  position : Nat
  cls : CharClass
  deriving DecidableEq, Repr

/-- What an atom stands for. -/
inductive Piece where
  /-- A class, as often as its quantifier lets it occur. -/
  | single (cls : CharClass) (quantifier : Option Quantifier)
  /-- One of several sequences of classes. -/
  | choice (alternatives : List (List Slot))
  /-- All that is left. -/
  | rest
  deriving DecidableEq, Repr

namespace Piece

/-- The quantifier, if there is one. -/
def quantifier? : Piece → Option Quantifier
  | single _ q => q
  | choice _ | rest => none

/-- The digit class of a piece that captures. -/
def capturing? : Piece → Option CharClass
  | single cls _ => if cls.isDigitClass then some cls else none
  | choice _ | rest => none

/-- The first character that the piece is written with. -/
def token : Piece → Char
  | single cls _ => cls.token
  | choice _ => '['
  | rest => 'Z'

/-- Whether a text can stand for one occurrence of the piece's class. The wildcard takes any
text, the other classes one character of their own; a piece without a class takes nothing. -/
def acceptsText : Piece → String → Bool
  | single .wildcard _, _ => true
  | single cls _, s =>
    match s.toList with
    | [c] => cls.accepts c
    | _ => false
  | choice _, _ | rest, _ => false

end Piece

/-- The unit of a pattern: what it stands for, where it starts, and the capture group that it
belongs to. -/
structure Atom where
  position : Nat
  piece : Piece
  group : Option Nat
  deriving DecidableEq, Repr

/-! ## Patterns -/

/-- A pattern that was read: its text, its atoms from left to right, and the count of its capture
groups. -/
structure Pattern where
  source : String
  atoms : List Atom
  groupCount : Nat
  deriving DecidableEq, Repr

namespace Pattern

/-- Whether the pattern ends in an atom that takes all that is left. -/
def hasRest (p : Pattern) : Bool := p.atoms.getLast?.any (·.piece = .rest)

/-- Counts an atom for its capture group. A quantifier makes the length of the group vary, whatever
comes before it and behind it. -/
def countAtom (lengths : List (Option Nat)) (a : Atom) : List (Option Nat) :=
  match a.group with
  | none => lengths
  | some group => lengths.modify group fun length =>
      if a.piece.quantifier? = none then length.map (· + 1) else none

/-- The lengths of all capture groups; none where a quantifier makes it vary. -/
def groupLengths (p : Pattern) : List (Option Nat) :=
  p.atoms.foldl countAtom (List.replicate p.groupCount (some 0))

end Pattern

end CallRouting

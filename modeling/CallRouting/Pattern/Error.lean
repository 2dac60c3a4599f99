import CallRouting.Text.Quoted

/-!
# Faults in patterns

Why a text is not a pattern, where the fault lies, and the sentence that reports it. A fault that
concerns the text as a whole has no position.
-/

namespace CallRouting

/-- What can be wrong with a pattern. -/
inductive PatternFault where
  | empty
  | tooLong (limit : Int)
  | tooManyQuantifiers (limit : Int)
  | nothingToRepeat (quantifier : Char)
  | quantifiedChoice
  | repeatedQuantifier (quantifier : Char)
  | unclosedChoice
  | nestedChoice
  | tooFewAlternatives
  | emptyAlternative
  | strayBracket
  | strayBar
  deriving DecidableEq, Repr

/-- The words for a fault. -/
def PatternFault.words : PatternFault → String
  | .empty => "Empty pattern"
  | .tooLong limit => s!"Pattern longer than {limit} characters"
  | .tooManyQuantifiers limit => s!"More than {limit} quantifiers"
  | .nothingToRepeat q => s!"Quantifier {Text.quotedChar q} has nothing to repeat"
  | .quantifiedChoice => "Alternation group cannot be quantified"
  | .repeatedQuantifier q => s!"Quantifier {Text.quotedChar q} follows another quantifier"
  | .unclosedChoice => "Unclosed alternation group"
  | .nestedChoice => "Nested alternation group"
  | .tooFewAlternatives => "Alternation group needs at least two alternatives"
  | .emptyAlternative => "Empty alternative in alternation group"
  | .strayBracket => "Unbalanced ']'"
  | .strayBar => "'|' outside an alternation group"

/-- Adds to the words for a fault where it lies: a position and the pattern, or the pattern alone
if there is no position, or nothing if the pattern is empty as well. -/
def locate (words : String) (source : String) (position : Option Int) : String :=
  match position with
  | some p => s!"{words} at position {p} in {Text.quoted source}"
  | none => if source.isEmpty then words else s!"{words} in {Text.quoted source}"

/-- A fault in a pattern, with its position if it has one. -/
structure PatternError where
  fault : PatternFault
  source : String
  position : Option Nat
  deriving DecidableEq, Repr

/-- The sentence that reports the fault. -/
def PatternError.message (e : PatternError) : String :=
  locate e.fault.words e.source (e.position.map Int.ofNat)

end CallRouting

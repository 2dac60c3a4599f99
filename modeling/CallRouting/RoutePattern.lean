import CallRouting.Text.Digit

/-!
# Patterns of routes

A route names the numbers it is for, and the callers that may use it, in one of three ways: a star
for all of them, digits and a star for those that start with the digits, or a number pattern.
-/

namespace CallRouting

/-- The numbers a route is for. -/
inductive RoutePattern where
  /-- All numbers. -/
  | all
  /-- The numbers that start with these digits. -/
  | stem (digits : List Char)
  /-- The numbers that fit a number pattern. -/
  | pattern (source : String)
  deriving DecidableEq, Repr

namespace RoutePattern

/-- Reads a route's pattern. Digits of any script may stand before the star. -/
def ofString (s : String) : RoutePattern :=
  match s.toList.reverse with
  | '*' :: reversed =>
    if reversed.isEmpty then .all
    else if reversed.all Text.isDigit then .stem reversed.reverse
    else .pattern s
  | _ => .pattern s

/-- Whether the pattern is one of the two kinds with a star. -/
def isOpen (s : String) : Bool :=
  match ofString s with
  | .all | .stem _ => true
  | .pattern _ => false

/-- The star alone stands for all numbers. -/
example : ofString "*" = .all := by decide

/-- Digits and a star are a stem. -/
example : ofString "1202*" = .stem ['1', '2', '0', '2'] := by decide

/-- A star after anything else belongs to a number pattern. -/
example : ofString "1X*" = .pattern "1X*" := by decide

end RoutePattern

end CallRouting

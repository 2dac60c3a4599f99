import CallRouting.Number
import CallRouting.Settings

/-!
# Classes of calls

A call is local, toll-free, long-distance or international, or of none of these kinds. That
depends on the number alone, but for one thing: a route whose pattern is pinned to an area code,
because it starts with at least four digits of its own, makes national numbers local.
-/

namespace CallRouting

/-- The classes of calls. -/
inductive CallClass where
  | localCall
  | tollFree
  | longDistance
  | international
  | unknown
  deriving DecidableEq, Repr

namespace CallClass

/-- The name of a class for people. -/
def name : CallClass → String
  | .localCall => "Local"
  | .tollFree => "Toll Free"
  | .longDistance => "Long Distance"
  | .international => "International"
  | .unknown => "Unknown"

/-- The name of a class for programs. -/
def code : CallClass → String
  | .localCall => "LOCAL"
  | .tollFree => "TOLLFREE"
  | .longDistance => "LONGDISTANCE"
  | .international => "INTERNATIONAL"
  | .unknown => "UNKNOWN"

/-- Whether a character of a pattern stands for one digit, or looks as if it did. -/
def standsForDigit (c : Char) : Bool :=
  c = 'N' || c = 'X' || c = 'x' || c = 'Z' || c = 'n' || c = 'z'

/-- How many digits of its own a pattern has before the first character that is neither a digit
nor stands for one. -/
def leadingDigits (pattern : String) : Nat :=
  (pattern.toList.takeWhile fun c => Text.isDigit c || standsForDigit c).countP Text.isDigit

/-- Whether the digits are those of a national number with its country code. -/
def isNational (code digits : List Char) : Bool :=
  digits.length = Number.nationalLength + code.length && code.isPrefixOf digits

/-- The area code of a national number with its country code. -/
def areaCode (code digits : List Char) : List Char := (digits.drop code.length).take 3

/-- Classes digits under a country code, for a route with a pattern. -/
def ofDigits (code digits : List Char) (pattern : String) : CallClass :=
  if digits.length = 7 ∨ digits.length = Number.nationalLength then .localCall
  else if isNational code digits then
    if String.ofList (areaCode code digits) ∈ Settings.tollFreeAreaCodes then .tollFree
    else if 4 ≤ leadingDigits pattern then .localCall
    else .longDistance
  else if !code.isPrefixOf digits ∧ 10 ≤ digits.length then .international
  else .unknown

/-- Classes a number. -/
def ofNumber (code number pattern : String) : CallClass :=
  ofDigits code.toList (Number.digits number).toList pattern

end CallClass

end CallRouting

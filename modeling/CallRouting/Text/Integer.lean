import CallRouting.Text.Blank
import CallRouting.Text.Digit
import CallRouting.Text.Quoted

/-!
# Whole numbers in settings

A whole number may have white space around it and a sign in front; its digits may be the decimal
characters of any script, and a single low line may stand between two of them. More than
4300 digits are refused.
-/

namespace CallRouting.Text

/-- Why a text is not a whole number. -/
inductive IntegerFault where
  /-- The text is not of the form of a whole number. -/
  | malformed (text : String)
  /-- The text has more digits than are accepted. -/
  | oversized (digits : Nat)
  deriving DecidableEq, Repr

/-- The most digits a whole number may have. -/
def maxDigits : Nat := 4300

/-- The sentence that reports the fault; it quotes at most 200 characters. -/
def IntegerFault.message : IntegerFault → String
  | .malformed text =>
    "invalid literal for int() with base 10: " ++ String.ofList ((quoted text).toList.take 200)
  | .oversized digits =>
    s!"Exceeds the limit ({maxDigits} digits) for integer string conversion: value has {digits} " ++
      "digits; use sys.set_int_max_str_digits() to increase the limit"

/-- White space that may surround a whole number: within ASCII the space and the characters from
tab to CR, beyond it all white space. -/
def isIntegerBlank (c : Char) : Bool :=
  if c.toNat < 0x7F then c = ' ' || (0x09 ≤ c.toNat && c.toNat ≤ 0x0D) else isBlank c

/-- Splits a sign off the front; the flag says whether it is a minus. -/
def takeSign : List Char → Bool × List Char
  | '-' :: rest => (true, rest)
  | '+' :: rest => (false, rest)
  | rest => (false, rest)

/-- Reads a run of digits in which single low lines may stand between two digits. The answer
holds the digit values in reverse and what follows; it is none if a low line stands elsewhere or
no digit is there. The flag says whether a low line came last. -/
def digitRun : List Nat → Bool → List Char → Option (List Nat × List Char)
  | seen, afterLine, [] => if afterLine || seen.isEmpty then none else some (seen, [])
  | seen, afterLine, c :: rest =>
    match decimalValue? c with
    | some d => digitRun (d :: seen) false rest
    | none =>
      if c = '_' then
        if afterLine || seen.isEmpty then none else digitRun seen true rest
      else if afterLine || seen.isEmpty then none
      else some (seen, c :: rest)

/-- The number whose decimal digits are given, most significant first. -/
def ofDigits (digits : List Nat) : Nat := digits.foldl (fun n d => 10 * n + d) 0

/-- Reads a whole number. -/
def readInt (s : String) : Except IntegerFault Int :=
  let (negative, body) := takeSign (s.toList.dropWhile isIntegerBlank)
  match digitRun [] false body with
  | none => .error (.malformed s)
  | some (reversed, rest) =>
    if maxDigits < reversed.length then .error (.oversized reversed.length)
    else if !rest.all isIntegerBlank then .error (.malformed s)
    else
      let n : Int := ofDigits reversed.reverse
      .ok (if negative then -n else n)

end CallRouting.Text

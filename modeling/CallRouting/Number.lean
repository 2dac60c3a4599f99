import CallRouting.Text.Digit

/-!
# Dialled numbers

A number can be dialled in several forms: with hyphens, parentheses and blanks in it, without the
country code, with it, or with a plus sign in front. The normal form has no such characters and,
for a national number of ten digits, starts with a plus sign and the country code. A number of
another length is left without a prefix.
-/

namespace CallRouting

namespace Number

/-- The characters that only set a number's parts apart. -/
def isFormatting (c : Char) : Bool := c = '-' || c = '(' || c = ')' || c = ' '

/-- Removes the characters that only set parts apart. -/
def bare (number : List Char) : List Char := number.filter (!isFormatting ·)

/-- The length of a national number. -/
def nationalLength : Nat := 10

/-- Puts the prefix in front of a number without formatting. -/
def addPrefix (code number : List Char) : List Char :=
  if number.head? = some '+' then number
  else if number.length = nationalLength then '+' :: code ++ number
  else if number.length = nationalLength + code.length ∧ code.isPrefixOf number then '+' :: number
  else number

/-- The normal form of a number under a country code. -/
def normalize (code number : String) : String :=
  String.ofList (addPrefix code.toList (bare number.toList))

/-- A number without its plus signs. -/
def digits (number : String) : String := String.ofList (number.toList.filter (· ≠ '+'))

/-- Nothing is left to remove once the formatting is gone. -/
theorem bare_bare (number : List Char) : bare (bare number) = bare number := by
  simp [bare]

/-- A plus sign in front stays, and so does the rest. -/
theorem addPrefix_plus (code number : List Char) :
    addPrefix code ('+' :: number) = '+' :: number := by
  simp [addPrefix]

end Number

end CallRouting

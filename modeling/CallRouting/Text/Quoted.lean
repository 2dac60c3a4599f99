import CallRouting.Text.Hex
import CallRouting.Text.Printable

/-!
# Quoted text

Messages show the patterns and numbers they speak of in quotes. The quote is an apostrophe,
unless the text holds an apostrophe and no double quote. The quote and the backslash are
escaped, tab, LF and CR by letter, and every other unprintable character by its code point in two,
four or eight hexadecimal digits, as few as it takes.
-/

namespace CallRouting.Text

/-- The quote a text is put in. -/
def quoteMark (cs : List Char) : Char :=
  if cs.contains '\'' && !cs.contains '"' then '"' else '\''

/-- An escape that names a code point. -/
def codeEscape (c : Char) : List Char :=
  let n := c.toNat
  if n ≤ 0xFF then '\\' :: 'x' :: hexDigits 2 n
  else if n ≤ 0xFFFF then '\\' :: 'u' :: hexDigits 4 n
  else '\\' :: 'U' :: hexDigits 8 n

/-- One character inside quotes of the given kind. -/
def quoteChar (mark c : Char) : List Char :=
  if c = mark || c = '\\' then ['\\', c]
  else if c = '\t' then ['\\', 't']
  else if c = '\n' then ['\\', 'n']
  else if c = '\r' then ['\\', 'r']
  else if isPrintable c then [c]
  else codeEscape c

/-- A text in quotes. -/
def quoted (s : String) : String :=
  let cs := s.toList
  let mark := quoteMark cs
  String.ofList (mark :: cs.flatMap (quoteChar mark) ++ [mark])

/-- A character in quotes. -/
def quotedChar (c : Char) : String := quoted (String.singleton c)

/-- Plain text stands in apostrophes. -/
example : quoted "NxxXXXX" = "'NxxXXXX'" := by decide

/-- An apostrophe alone turns the quotes into double quotes. -/
example : quoted "a'b" = "\"a'b\"" := by decide

end CallRouting.Text

/-!
# Letter case of names

Level names and flags are compared without regard to letter case, and every name they are
compared with is spelled in ASCII. So only two things matter of Unicode's case maps: the ASCII
letters, and the few characters outside ASCII whose capital form is spelled in ASCII letters.
No character outside ASCII has a small form that is spelled in the letters of `true`.
-/

namespace CallRouting.Text

/-- The characters outside ASCII whose capital form consists of ASCII letters. -/
def asciiCapitals : List (Char × String) :=
  [('ß', "SS"), ('ı', "I"), ('ſ', "S"), ('ﬀ', "FF"), ('ﬁ', "FI"), ('ﬂ', "FL"), ('ﬃ', "FFI"),
   ('ﬄ', "FFL"), ('ﬅ', "ST"), ('ﬆ', "ST")]

/-- The capital form of a character, as far as it is spelled in ASCII. -/
def capital (c : Char) : List Char :=
  match asciiCapitals.lookup c with
  | some letters => letters.toList
  | none => [c.toUpper]

/-- A text in capitals. -/
def capitals (s : String) : String := String.ofList (s.toList.flatMap capital)

/-- A text with its ASCII letters made small. -/
def smallLetters (s : String) : String := String.ofList (s.toList.map Char.toLower)

/-- Capitals stay as they are. -/
example : capitals "INFO" = "INFO" := by decide

/-- The dotless i has the plain capital. -/
example : capitals "ınfo" = "INFO" := by decide

end CallRouting.Text

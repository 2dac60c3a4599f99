import CallRouting.Json.Writer
import CallRouting.Text.Quoted

/-!
# Values in running text

A value that is shown in a message is not written as JSON: texts inside it stand in the quotes of
messages, and the three words are `None`, `True` and `False`. A text by itself is shown as it is.
-/

namespace CallRouting.Json

/-- The words for what is no finite number in a message. -/
def shownWords : Double.Words := ⟨"inf", "nan"⟩

mutual

/-- A value as it stands inside a message. -/
def literal : Json → String
  | .null => "None"
  | .bool b => if b then "True" else "False"
  | .int n => toString n
  | .real x => String.ofList (x.chars shownWords)
  | .str s => Text.quoted s
  | .arr items => "[" ++ ", ".intercalate (literals items) ++ "]"
  | .obj fields => "\x7b" ++ ", ".intercalate (fieldLiterals fields) ++ "\x7d"

/-- The items of an array. -/
def literals : List Json → List String
  | [] => []
  | item :: rest => literal item :: literals rest

/-- The fields of an object. -/
def fieldLiterals : List (String × Json) → List String
  | [] => []
  | (name, value) :: rest => (Text.quoted name ++ ": " ++ literal value) :: fieldLiterals rest

end

/-- A value as the text of a message. -/
def shown : Json → String
  | .str s => s
  | value => value.literal

end CallRouting.Json

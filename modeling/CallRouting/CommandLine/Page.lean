import CallRouting.CommandLine.Command
import CallRouting.Json.Literal
import CallRouting.Text.Terminal

/-!
# Printed results

A result is printed as JSON over several lines, or as plain text: a line for each field and item,
two blanks deeper for what lies inside, a hyphen for nothing, and `yes` and `no` for the truth
values. Control sequences of terminals are left out of plain text; JSON holds none, for it escapes
the character that they start with.
-/

namespace CallRouting.CommandLine

/-- A value on the line of its field or item. -/
def scalar : Json → String
  | .null => "-"
  | .bool b => if b then "yes" else "no"
  | .arr _ => "[]"
  | value => value.shown

/-- The blanks in front of a line that lies so deep. -/
def indentation (depth : Nat) : String := String.ofList (List.replicate (2 * depth) ' ')

/-- Whether a value is an array or an object. -/
def isContainer : Json → Bool
  | .arr _ | .obj _ => true
  | _ => false

/-- Whether a value is an array or an object with something in it. -/
def hasInside : Json → Bool
  | .arr items => !items.isEmpty
  | .obj fields => !fields.isEmpty
  | _ => false

mutual

/-- The lines of a value that lies so deep. -/
def textLines (depth : Nat) : Json → List String
  | .obj fields => fieldLines depth fields
  | .arr items => itemLines depth items
  | value => [indentation depth ++ scalar value]

/-- The lines of fields. -/
def fieldLines (depth : Nat) : List (String × Json) → List String
  | [] => []
  | (name, value) :: rest =>
    (if hasInside value then
      (indentation depth ++ name ++ ":") :: textLines (depth + 1) value
    else [indentation depth ++ name ++ ": " ++ scalar value]) ++ fieldLines depth rest

/-- The lines of items. -/
def itemLines (depth : Nat) : List Json → List String
  | [] => []
  | item :: rest =>
    (if isContainer item then (indentation depth ++ "-") :: textLines (depth + 1) item
    else [indentation depth ++ "- " ++ scalar item]) ++ itemLines depth rest

end

/-- A result as it is printed. -/
def print (format : Format) (value : Json) : String :=
  match format with
  | .json => value.page ++ "\n"
  | .text => Text.dropControls ("\n".intercalate (textLines 0 value) ++ "\n")

end CallRouting.CommandLine

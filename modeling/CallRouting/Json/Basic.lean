import CallRouting.Double.Basic

/-!
# JSON values

A JSON value as rules files, request bodies and log lines hold it. Objects keep the order of
their fields. Whole numbers are exact and unbounded; a number with a fraction or an exponent is
kept as the nearest number of double precision.
-/

namespace CallRouting

/-- A JSON value. -/
inductive Json where
  | null
  | bool (b : Bool)
  | int (n : Int)
  | real (x : Double)
  | str (s : String)
  | arr (items : List Json)
  | obj (fields : List (String × Json))
  deriving Repr, Inhabited

namespace Json

/-- Puts a field into an object: a new name goes to the end, a known one keeps its place and
takes the new value. -/
def setField (name : String) (value : Json) : List (String × Json) → List (String × Json)
  | [] => [(name, value)]
  | (n, v) :: rest => if n = name then (n, value) :: rest else (n, v) :: setField name value rest

/-- The field of an object; none if it is absent or the value is no object. -/
def field? (name : String) : Json → Option Json
  | .obj fields => fields.lookup name
  | _ => none

/-- A list of texts. -/
def ofStrings (texts : List String) : Json := .arr (texts.map .str)

/-- A text, or null for none. -/
def ofString? : Option String → Json
  | none => .null
  | some s => .str s

mutual

/-- Whether all numbers of a value are finite. -/
def isFinite : Json → Bool
  | .real x => x.isFinite
  | .arr items => itemsFinite items
  | .obj fields => fieldsFinite fields
  | .null | .bool _ | .int _ | .str _ => true

/-- Whether all numbers of some items are finite. -/
def itemsFinite : List Json → Bool
  | [] => true
  | item :: rest => item.isFinite && itemsFinite rest

/-- Whether all numbers of some fields are finite. -/
def fieldsFinite : List (String × Json) → Bool
  | [] => true
  | (_, value) :: rest => value.isFinite && fieldsFinite rest

end

/-- The field just set is found. -/
theorem lookup_setField (name : String) (value : Json) (fields : List (String × Json)) :
    (setField name value fields).lookup name = some value := by
  induction fields with
  | nil => simp [setField]
  | cons f rest ih =>
    obtain ⟨n, v⟩ := f
    by_cases h : n = name
    · simp [setField, h]
    · simp [setField, h, List.lookup_cons, ih, beq_eq_false_iff_ne.2 (Ne.symm h)]

end Json

end CallRouting

import CallRouting.DialPlan.Rule

/-!
# What a request asks for

A request asks the service to fit a number to a pattern, to write a number anew, or to route it.
The body of the request is a JSON object with a field for each thing there is to know. All of it
is checked, and everything that is wrong is found in one go.
-/

namespace CallRouting

/-! ## Truth values -/

/-- The texts that stand for the truth values, without regard to letter case. -/
def truthWords : List (String × Bool) :=
  [("1", true), ("on", true), ("t", true), ("true", true), ("y", true), ("yes", true),
   ("0", false), ("off", false), ("f", false), ("false", false), ("n", false), ("no", false)]

/-- The greatest whole number that is looked at as a truth value. -/
def greatestTruth : Int := 0x7FFFFFFFFFFFFFFF

/-- The truth value of a whole number. -/
def truthOfInt (place : List PathStep) (n : Int) : Checked Bool :=
  if n = 0 then .ok false
  else if n = 1 then .ok true
  else if -greatestTruth - 1 ≤ n ∧ n ≤ greatestTruth then Checked.flaw .unclearTruth place
  else Checked.flaw .notTruth place

/-- A truth value; texts and numbers may stand for one. -/
def truthAt (place : List PathStep) : Json → Checked Bool
  | .bool b => .ok b
  | .int n => truthOfInt place n
  | .real x =>
    match x.integer? with
    | some n => truthOfInt place n
    | none => Checked.flaw .notTruth place
  | .str s =>
    match truthWords.lookup (Text.smallLetters s) with
    | some b => .ok b
    | none => Checked.flaw .unclearTruth place
  | .null | .arr _ | .obj _ => Checked.flaw .notTruth place

/-- A value, or null for none. -/
def orNull {α : Type} (read : List PathStep → Json → Checked α) (place : List PathStep) :
    Json → Checked (Option α)
  | .null => .ok none
  | v => some <$> read place v

/-! ## Asks -/

/-- What a request asks for. -/
inductive Ask where
  | fit (pattern input : String)
  | transform (input pattern template : String) (strict : Option Bool)
  | route (destination : String) (sender : Option String) (direction : Option Direction)
  deriving DecidableEq, Repr

namespace Ask

/-- The name under which findings speak of the body. -/
def bodyName : String := "body"

/-- The path of the whole body. -/
def body : List PathStep := [.field bodyName]

/-- Reads the body of a request to fit. -/
def readFit (v : Json) : Checked Ask :=
  (Except.ok Ask.fit : Checked _)
    |> (Checked.apply · (requiredAt v body "pattern" textAt))
    |> (Checked.apply · (requiredAt v body "input" textAt))

/-- Reads the body of a request to transform. -/
def readTransform (v : Json) : Checked Ask :=
  (Except.ok Ask.transform : Checked _)
    |> (Checked.apply · (requiredAt v body "input" textAt))
    |> (Checked.apply · (requiredAt v body "pattern" textAt))
    |> (Checked.apply · (requiredAt v body "template" textAt))
    |> (Checked.apply · (fieldAt v body "strict" (.ok none) (orNull truthAt)))

/-- Reads the body of a request to route. -/
def readRoute (v : Json) : Checked Ask :=
  (Except.ok Ask.route : Checked _)
    |> (Checked.apply · (requiredAt v body "destination" textAt))
    |> (Checked.apply · (fieldAt v body "sender" (.ok none) optionalTextAt))
    |> (Checked.apply · (fieldAt v body "direction" (.ok none) (orNull Rule.directionAt)))

end Ask

end CallRouting

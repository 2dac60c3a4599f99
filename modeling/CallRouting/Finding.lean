import CallRouting.Json.Basic

/-!
# Findings in documents

A document from outside, be it a rules file or the body of a request, is checked field by field.
Everything that is wrong is found in one go: each finding says what is wrong and where, as the
path of field names and indexes from the top of the document.
-/

namespace CallRouting

/-- A step of a path into a document. -/
inductive PathStep where
  | field (name : String)
  | index (n : Nat)
  deriving DecidableEq, Repr

/-- A step as it is written. -/
def PathStep.toJson : PathStep → Json
  | .field name => .str name
  | .index n => .int n

/-- The value that a step leads to. -/
def PathStep.follow? : PathStep → Json → Option Json
  | .field name, v => v.field? name
  | .index n, .arr items => items[n]?
  | .index _, _ => none

/-- The value that a path leads to. -/
def valueAt? (document : Json) (place : List PathStep) : Option Json :=
  place.foldl (fun v step => v.bind step.follow?) (some document)

/-- What can be wrong at a place of a document. -/
inductive Flaw where
  | missing
  | notText
  | notList
  /-- The value is no object, where a record of the given name should be. -/
  | notRecord (name : String)
  | notDirection
  /-- The value has the right form but is refused for a reason. -/
  | refused (reason : String)
  /-- A text or a number that stands for neither truth value. -/
  | unclearTruth
  | notTruth
  | notObject
  | notJson
  deriving DecidableEq, Repr

namespace Flaw

/-- The name of a flaw for programs. -/
def kind : Flaw → String
  | missing => "missing"
  | notText => "string_type"
  | notList => "list_type"
  | notRecord _ => "model_type"
  | notDirection => "enum"
  | refused _ => "value_error"
  | unclearTruth => "bool_parsing"
  | notTruth => "bool_type"
  | notObject => "model_attributes_type"
  | notJson => "json_invalid"

/-- The sentence that reports a flaw. -/
def message : Flaw → String
  | missing => "Field required"
  | notText => "Input should be a valid string"
  | notList => "Input should be a valid list"
  | notRecord name => s!"Input should be a valid dictionary or instance of {name}"
  | notDirection => "Input should be 'inbound' or 'outbound'"
  | refused reason => s!"Value error, {reason}"
  | unclearTruth => "Input should be a valid boolean, unable to interpret input"
  | notTruth => "Input should be a valid boolean"
  | notObject => "Input should be a valid dictionary or object to extract fields from"
  | notJson => "JSON decode error"

end Flaw

/-- A flaw and the path to it. -/
structure Finding where
  flaw : Flaw
  place : List PathStep
  deriving DecidableEq, Repr

/-- A finding as it is written. -/
def Finding.toJson (f : Finding) : Json :=
  .obj [("type", .str f.flaw.kind), ("loc", .arr (f.place.map PathStep.toJson)),
    ("msg", .str f.flaw.message)]

/-- The value that a finding is about: what lies at its place, or the record that lacks a field. -/
def Finding.subject? (document : Json) (f : Finding) : Option Json :=
  valueAt? document (if f.flaw = .missing then f.place.dropLast else f.place)

/-! ## Checked values -/

/-- A checked value, or everything that was found. -/
abbrev Checked := Except (List Finding)

namespace Checked

variable {α β : Type}

/-- A single finding. -/
def flaw (flaw : Flaw) (place : List PathStep) : Checked α := .error [⟨flaw, place⟩]

/-- Applies a checked function to a checked value; the findings of both are kept. -/
def apply (f : Checked (α → β)) (x : Checked α) : Checked β :=
  match f, x with
  | .ok f, .ok a => .ok (f a)
  | .ok _, .error e => .error e
  | .error d, .ok _ => .error d
  | .error d, .error e => .error (d ++ e)

/-- Applying succeeds when both sides do. -/
theorem apply_eq_ok_iff {f : Checked (α → β)} {x : Checked α} {b : β} :
    apply f x = .ok b ↔ ∃ g a, f = .ok g ∧ x = .ok a ∧ g a = b := by
  cases f <;> cases x <;> simp [apply]

/-- Puts a checked value in front of a checked list. -/
def cons (x : Checked α) (xs : Checked (List α)) : Checked (List α) :=
  apply (apply (.ok List.cons) x) xs

end Checked

/-! ## Fields -/

/-- A text. -/
def textAt (place : List PathStep) : Json → Checked String
  | .str s => .ok s
  | _ => Checked.flaw .notText place

/-- A text, or null for none. -/
def optionalTextAt (place : List PathStep) : Json → Checked (Option String)
  | .null => .ok none
  | v => some <$> textAt place v

/-- A field of a record, read by a reader of its own; `standard` stands for a field that is not
there. -/
def fieldAt {α : Type} (record : Json) (place : List PathStep) (name : String)
    (standard : Checked α) (read : List PathStep → Json → Checked α) : Checked α :=
  match record.field? name with
  | none => standard
  | some v => read (place ++ [.field name]) v

/-- A field that has to be there. -/
def requiredAt {α : Type} (record : Json) (place : List PathStep) (name : String)
    (read : List PathStep → Json → Checked α) : Checked α :=
  fieldAt record place name (Checked.flaw .missing (place ++ [.field name])) read

end CallRouting

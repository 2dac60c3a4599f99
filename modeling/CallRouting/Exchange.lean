import CallRouting.Log.Record
import CallRouting.Pattern.Fit
import CallRouting.Pattern.Store
import CallRouting.Settings
import CallRouting.Template

/-!
# The exchange

Everything that outlives a single question: the settings in force, the patterns that are kept, and
the log. A question may fail; what it left in the store and in the log stays all the same.

Two questions are answered here, for they concern no route: whether a number fits a pattern, and
how a number is written anew.
-/

namespace CallRouting

/-- What outlives a question. -/
structure Exchange where
  settings : Settings
  patterns : PatternStore
  /-- The log records, last one first. -/
  log : List LogRecord

namespace Exchange

/-- The exchange at the start; the size of the store is fixed here. -/
def start (settings : Settings) : Exchange :=
  ⟨settings, .blank settings.patternStoreSize.toNat, []⟩

/-- The log records from the first one on. -/
def records (x : Exchange) : List LogRecord := x.log.reverse

end Exchange

/-! ## Failures of a call -/

/-- Why a question about a number cannot be answered. -/
inductive CallError where
  /-- A pattern is malformed. -/
  | pattern (e : PatternError)
  /-- A number is to be written anew but does not fit the pattern. -/
  | noFit (number pattern : String)
  /-- A template does not go with the captures. -/
  | template (e : TemplateError)
  /-- The search for a number goes deeper than there is room. -/
  | tooDeep
  deriving DecidableEq, Repr

/-- The sentence that reports that a number does not fit. -/
def noFitMessage (number pattern : String) : String :=
  s!"Input {Text.quoted number} does not match pattern {Text.quoted pattern}"

namespace CallError

/-- The sentence that reports the failure. -/
def message : CallError → String
  | .pattern e => e.message
  | .noFit number source => noFitMessage number source
  | .template e => e.message
  | .tooDeep => "The pattern has too many atoms to fit the input"

/-- The name of a kind of failure for programs. -/
def code : CallError → String
  | .pattern _ => "PATTERN_INVALID"
  | .noFit .. => "NO_MATCH"
  | .template _ => "CAPTURE_LENGTH_MISMATCH"
  | .tooDeep => "PATTERN_TOO_DEEP"

end CallError

/-- Work on the exchange that answers or fails. -/
abbrev Work (ε : Type) := ExceptT ε (StateM Exchange)

namespace Exchange

/-- The settings in force. -/
def settingsNow {ε : Type} : Work ε Settings := return (← get).settings

/-- Writes a record to the log. -/
def note {ε : Type} (r : LogRecord) : Work ε Unit :=
  modify fun x => { x with log := r :: x.log }

/-- Does some work and tells which records it wrote to the log, first one first. -/
def recording {α : Type} (work : StateM Exchange α) : StateM Exchange (α × List LogRecord) :=
  fun x =>
    let (a, y) := work { x with log := [] }
    ((a, y.records), { y with log := y.log ++ x.log })

/-- Asks the store for the pattern with a source. -/
def ask (source : String) : Work PatternError Pattern := fun x =>
  let (answer, patterns) := x.patterns.ask x.settings.limits source
  (answer, { x with patterns })

/-- The pattern with a source, from the store or read anew. -/
def pattern (source : String) : Work CallError Pattern := (ask source).adapt .pattern

/-- Fits a number to a pattern at hand, if there is room for the search. -/
def fitTo (p : Pattern) (number : String) (room : Nat := ({} : Rooms).search) :
    Except CallError (Option Pattern.Fit) :=
  if p.tooDeep room number then .error .tooDeep else .ok (p.fit? number)

/-- There is room for a pattern with few atoms. -/
theorem fitTo_eq_ok {p : Pattern} {room : Nat} (h : p.atoms.length ≤ room) (number : String) :
    fitTo p number room = .ok (p.fit? number) := by
  simp [fitTo, Pattern.tooDeep_eq_false h]

/-- Fits a number to a pattern at hand with the room of the call. -/
def fitNow (p : Pattern) (number : String) : Work CallError (Option Pattern.Fit) := do
  fitTo p number (← settingsNow).limits.room

/-- Fits a number to a pattern. -/
def fit? (source number : String) : Work CallError (Option Pattern.Fit) := do
  fitNow (← pattern source) number

/-- Whether a number fits a pattern. -/
def fits (source number : String) : Work CallError Bool := return (← fit? source number).isSome

/-- Writes a number that fits a pattern anew. -/
def transform (strict : Bool) (number source template : String) : Work CallError String := do
  let p ← pattern source
  match ← fitNow p number with
  | none => throw (.noFit number source)
  | some f =>
    match render strict f.groups f.rest (some p.hasRest) template with
    | .ok text => return text
    | .error e => throw (.template e)

end Exchange

end CallRouting

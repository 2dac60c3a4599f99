import CallRouting.File
import CallRouting.Pattern.Scan
import CallRouting.Text.Integer
import CallRouting.Text.LetterCase

/-!
# Settings

The settings come from the environment, each from a variable of its own with a standard value.
Whether the values make sense is a question of its own: what does not is listed as an issue and
does not stop the program. Only a rules file about which nothing can be told leaves the question
open.
-/

namespace CallRouting

/-- How deep a call may go before the stack that it works on is full. A caller that stands deep
itself leaves little, so each surface has rooms of its own. The standard values are, within a few,
those of a call with nothing under it. -/
structure Rooms where
  /-- How many atoms deep the search for a text may go. -/
  search : Nat := 985
  /-- How many arrays and objects may lie inside one another in a rules file. -/
  document : Nat := 985
  /-- How many arrays and objects may lie inside one another in the body of a request. -/
  body : Nat := 960
  deriving DecidableEq, Repr

/-- The settings of the program, and the rooms of the call that works with them. -/
structure Settings where
  maxPatternLength : Int := 256
  maxQuantifiers : Int := 32
  patternStoreSize : Int := 512
  /-- Whether a run of a template has to be as long as its capture group. -/
  strictTemplates : Bool := true
  /-- The country code of national numbers. -/
  countryCode : String := "1"
  /-- The rules file that the service works with; none if empty. -/
  rulesFile : String := ""
  logLevel : String := "INFO"
  logFile : String := ""
  /-- What the call is left by its caller; no variable sets it. -/
  rooms : Rooms := {}
  deriving DecidableEq, Repr

namespace Settings

/-- The limits that patterns have to keep, with the room for a search. -/
def limits (s : Settings) : PatternLimits := ⟨s.maxPatternLength, s.maxQuantifiers, s.rooms.search⟩

/-- The area codes of toll-free numbers. -/
def tollFreeAreaCodes : List String := ["800", "888", "877", "866", "855", "844", "833"]

/-- The levels that a log level should be one of. -/
def knownLevels : List String := ["DEBUG", "INFO", "WARNING", "ERROR", "CRITICAL"]

/-! ## From the environment -/

/-- A whole number from the environment. -/
def readNumber (env? : String → Option String) (name : String) (standard : Int) :
    Except Text.IntegerFault Int :=
  match env? name with
  | none => .ok standard
  | some text => Text.readInt text

/-- Reads the settings; the first number that is malformed stops it. -/
def ofEnvironment (env? : String → Option String) : Except Text.IntegerFault Settings := do
  let maxPatternLength ← readNumber env? "DIALPLAN_MAX_PATTERN_LENGTH" 256
  let maxQuantifiers ← readNumber env? "DIALPLAN_MAX_QUANTIFIERS" 32
  let patternStoreSize ← readNumber env? "DIALPLAN_PATTERN_CACHE_SIZE" 512
  return {
    maxPatternLength
    maxQuantifiers
    patternStoreSize
    strictTemplates :=
      Text.smallLetters ((env? "DIALPLAN_TRANSFORM_STRICT").getD "true") = "true"
    countryCode := (env? "DIALPLAN_DEFAULT_COUNTRY_CODE").getD "1"
    rulesFile := (env? "DIALPLAN_RULES_FILE").getD ""
    logLevel := (env? "DIALPLAN_LOG_LEVEL").getD "INFO"
    logFile := (env? "DIALPLAN_LOG_FILE").getD "" }

/-- Without variables the settings are the standard ones. -/
theorem ofEnvironment_none : ofEnvironment (fun _ => none) = .ok {} := by rfl

/-! ## Issues -/

/-- Why nothing can be told about the rules file at a path. -/
structure RulesFault where
  path : String
  fault : FileFault
  deriving DecidableEq, Repr

/-- The sentence that reports why nothing can be told. -/
def RulesFault.message (f : RulesFault) : String := f.fault.message (Path.plain f.path)

/-- What does not make sense in the settings. -/
inductive Issue where
  | lengthNotPositive (limit : Int)
  | quantifiersNegative (limit : Int)
  | storeSizeNegative (size : Int)
  | countryCodeNotDigits (code : String)
  | noRulesFile (path : String)
  | unknownLevel (name : String)
  deriving DecidableEq, Repr

/-- The sentence that reports an issue. -/
def Issue.message : Issue → String
  | .lengthNotPositive limit => s!"DIALPLAN_MAX_PATTERN_LENGTH must be positive: {limit}"
  | .quantifiersNegative limit => s!"DIALPLAN_MAX_QUANTIFIERS must not be negative: {limit}"
  | .storeSizeNegative size => s!"DIALPLAN_PATTERN_CACHE_SIZE must not be negative: {size}"
  | .countryCodeNotDigits code => s!"Invalid DIALPLAN_DEFAULT_COUNTRY_CODE: {code}"
  | .noRulesFile path => s!"Dial plan rules file not found: {path}"
  | .unknownLevel name => s!"Invalid DIALPLAN_LOG_LEVEL: {name}"

/-- The issues of the settings, in the order of the settings, given whether the rules file that
they name is there. -/
def issuesGiven (s : Settings) (rulesThere : Bool) : List Issue :=
  (if s.maxPatternLength < 1 then [.lengthNotPositive s.maxPatternLength] else []) ++
  (if s.maxQuantifiers < 0 then [.quantifiersNegative s.maxQuantifiers] else []) ++
  (if s.patternStoreSize < 0 then [.storeSizeNegative s.patternStoreSize] else []) ++
  (if Text.allDigits s.countryCode then [] else [.countryCodeNotDigits s.countryCode]) ++
  (if s.rulesFile.isEmpty || rulesThere then [] else [.noRulesFile s.rulesFile]) ++
  (if Text.capitals s.logLevel ∈ knownLevels then [] else [.unknownLevel s.logLevel])

/-- The issues of the settings, or why nothing can be told about the rules file. -/
def issues (s : Settings) (files : Files) : Except RulesFault (List Issue) :=
  if s.rulesFile.isEmpty then .ok (s.issuesGiven false)
  else
    match files.look s.rulesFile with
    | .ok there => .ok (s.issuesGiven there)
    | .error fault => .error ⟨s.rulesFile, fault⟩

/-- The standard settings have no issues. -/
theorem issues_standard (files : Files) : ({} : Settings).issues files = .ok [] := by
  simp [issues, issuesGiven]
  decide

end Settings

end CallRouting

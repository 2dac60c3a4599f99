import CallRouting.CommandLine.Options
import CallRouting.Route

/-!
# Commands

The commands of the program and how they are written. In front of the command stands what concerns
all of them, the log level; behind it its own arguments and options, in any order.
-/

namespace CallRouting.CommandLine

/-- How results are printed. -/
inductive Format where
  | json
  | text
  deriving DecidableEq, Repr

/-- The format with a name. -/
def Format.ofName? (name : String) : Option Format :=
  if name = "json" then some .json
  else if name = "text" then some .text
  else none

/-- A command with its arguments. -/
inductive Command where
  /-- Fits a number to a pattern. -/
  | fit (pattern input : String)
  /-- Writes a number that fits a pattern anew. -/
  | transform (input pattern template : String) (lenient : Bool)
  /-- Routes a number through the dial plan of a rules file. -/
  | route (rules destination : String) (sender : Option String) (direction : Option Direction)
  /-- Checks a rules file. -/
  | check (rules : String)
  deriving DecidableEq, Repr

/-- The rules file that a command works with. -/
def Command.rules? : Command → Option String
  | .route rules .. | .check rules => some rules
  | .fit .. | .transform .. => none

/-- Whether a command takes its number from the standard input. -/
def Command.readsInput : Command → Bool
  | .fit _ input | .transform input .. => input = "-"
  | .route .. | .check _ => false

/-- The names of the commands. -/
inductive Verb where
  | fit
  | transform
  | route
  | check
  deriving DecidableEq, Repr

/-- The command with a name. -/
def Verb.ofName? (name : String) : Option Verb :=
  [("match", Verb.fit), ("transform", .transform), ("route", .route), ("check", .check)].lookup name

/-! ## Options -/

/-- The option that asks for the usage page. -/
def helpOption : OptionSpec := ⟨"help", none, false⟩

/-- The options in front of the command. -/
def generalOptions : List OptionSpec := [⟨"log-level", none, true⟩, helpOption]

/-- The options of a command. -/
def Verb.options : Verb → List OptionSpec
  | fit | check => [⟨"format", some 'f', true⟩, helpOption]
  | transform => [⟨"lenient", none, false⟩, ⟨"format", some 'f', true⟩, helpOption]
  | route =>
    [⟨"sender", some 's', true⟩, ⟨"direction", some 'd', true⟩, ⟨"format", some 'f', true⟩,
     helpOption]

/-! ## Reading -/

/-- What a command line asks for, as far as it can be told before logging is set up: the log
level, the name of the command, and the words behind it. -/
structure Call where
  logLevel : Option String
  verb : Verb
  words : List String
  deriving DecidableEq, Repr

/-- What reading comes to: a result, a request for the usage page, or words that make no sense. -/
inductive Reading (α : Type) where
  | done (a : α)
  | help
  | unclear
  deriving DecidableEq, Repr

/-- Reads what stands in front of the command, and its name. -/
def readCall (words : List String) : Reading Call :=
  match sort generalOptions false words with
  | none => .unclear
  | some s =>
    if s.has "help" then .help
    else
      match s.arguments with
      | [] => .unclear
      | name :: rest =>
        match Verb.ofName? name with
        | none => .unclear
        | some verb => .done ⟨s.value? "log-level", verb, rest⟩

/-- Reads an option whose value has to be one of several names. -/
def readChoice {α : Type} (ofName? : String → Option α) (standard : α) :
    Option String → Option α
  | none => some standard
  | some name => ofName? name

/-- The command that sorted words ask for. -/
def Verb.command? (verb : Verb) (s : Sorted) : Option Command :=
  match verb, s.arguments with
  | fit, [pattern, input] => some (.fit pattern input)
  | transform, [input, pattern, template] =>
    some (.transform input pattern template (s.has "lenient"))
  | route, [rules, destination] => do
    let direction ← readChoice (fun name => some <$> Direction.ofName? name) none
      (s.value? "direction")
    return .route rules destination (s.value? "sender") direction
  | check, [rules] => some (.check rules)
  | _, _ => none

/-- Reads the words behind the name of a command. -/
def readCommand (verb : Verb) (words : List String) : Reading (Command × Format) :=
  match sort verb.options true words with
  | none => .unclear
  | some s =>
    if s.has "help" then .help
    else
      match verb.command? s, readChoice Format.ofName? .json (s.value? "format") with
      | some command, some format => .done (command, format)
      | _, _ => .unclear

/-- The command of a whole command line, if it makes sense. -/
def commandOf? (words : List String) : Option Command :=
  match readCall words with
  | .help | .unclear => none
  | .done call =>
    match readCommand call.verb call.words with
    | .done (command, _) => some command
    | .help | .unclear => none

end CallRouting.CommandLine

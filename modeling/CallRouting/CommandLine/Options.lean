/-!
# Options and arguments

A command line is a list of words. A word that starts with a hyphen and has more to it is an
option; all others are arguments, and after the word `--` everything is one. An option may have a
long name with two hyphens and a short one with a hyphen and a letter. The value of an option is
the next word, whatever it is; it may also be attached, to a long name with an equals sign and to a
short one directly. Several short flags may share a hyphen.
-/

namespace CallRouting.CommandLine

/-- An option that a command knows. -/
structure OptionSpec where
  /-- The long name, without hyphens. -/
  name : String
  letter : Option Char := none
  takesValue : Bool := true
  deriving DecidableEq, Repr

/-- The words of a command line, sorted out: the options in order, each with its value if it takes
one, and the arguments. -/
structure Sorted where
  options : List (String × Option String)
  arguments : List String
  deriving DecidableEq, Repr

namespace Sorted

/-- The value of an option; the last one counts. -/
def value? (s : Sorted) (name : String) : Option String :=
  (s.options.reverse.find? (·.1 = name)).bind (·.2)

/-- Whether a flag is given. -/
def has (s : Sorted) (name : String) : Bool := s.options.any (·.1 = name)

/-- Puts an option in front. -/
def addOption (name : String) (value : Option String) (s : Sorted) : Sorted :=
  { s with options := (name, value) :: s.options }

/-- Puts an argument in front. -/
def addArgument (word : String) (s : Sorted) : Sorted :=
  { s with arguments := word :: s.arguments }

end Sorted

/-- What a word is. -/
inductive Word where
  | argument
  /-- The word after which only arguments follow. -/
  | stop
  | long (name : String) (value : Option String)
  | short (letters : List Char)
  deriving DecidableEq, Repr

/-- Splits a long option at its first equals sign. -/
def splitValue (cs : List Char) : String × Option String :=
  let name := String.ofList (cs.takeWhile (· ≠ '='))
  match cs.dropWhile (· ≠ '=') with
  | [] => (name, none)
  | _ :: value => (name, some (String.ofList value))

/-- Tells what a word is. -/
def Word.ofString (word : String) : Word :=
  match word.toList with
  | ['-', '-'] => .stop
  | '-' :: '-' :: rest =>
    let (name, value) := splitValue rest
    .long name value
  | '-' :: c :: rest => .short (c :: rest)
  | _ => .argument

/-- The flags at the front of letters that share a hyphen, and the option among them that takes a
value, with what is attached to it. None if a letter is unknown. -/
def readLetters (specs : List OptionSpec) :
    List Char → Option (List String × Option (String × List Char))
  | [] => some ([], none)
  | c :: rest =>
    match specs.find? (·.letter = some c) with
    | none => none
    | some spec =>
      if spec.takesValue then some ([], some (spec.name, rest))
      else (readLetters specs rest).map fun (flags, last) => (spec.name :: flags, last)

/-- Sorts words out. Without `interspersed` the first argument ends the options: it and all words
after it are arguments. None if a word is no known option or lacks its value. -/
def sort (specs : List OptionSpec) (interspersed : Bool) : List String → Option Sorted
  | [] => some ⟨[], []⟩
  | word :: rest =>
    match Word.ofString word with
    | .stop => some ⟨[], rest⟩
    | .argument =>
      if interspersed then (sort specs interspersed rest).map (·.addArgument word)
      else some ⟨[], word :: rest⟩
    | .long name value =>
      match specs.find? (·.name = name), value, rest with
      | none, _, _ => none
      | some spec, some value, rest =>
        if spec.takesValue then (sort specs interspersed rest).map (·.addOption name (some value))
        else none
      | some spec, none, [] =>
        if spec.takesValue then none else some ⟨[(name, none)], []⟩
      | some spec, none, next :: others =>
        if spec.takesValue then
          (sort specs interspersed others).map (·.addOption name (some next))
        else (sort specs interspersed (next :: others)).map (·.addOption name none)
    | .short letters =>
      match readLetters specs letters, rest with
      | none, _ => none
      | some (flags, none), rest =>
        (sort specs interspersed rest).map fun s => flags.foldr (Sorted.addOption · none) s
      | some (flags, some (name, [])), rest =>
        match rest with
        | [] => none
        | next :: others =>
          (sort specs interspersed others).map fun s =>
            flags.foldr (Sorted.addOption · none) (s.addOption name (some next))
      | some (flags, some (name, attached)), rest =>
        (sort specs interspersed rest).map fun s =>
          flags.foldr (Sorted.addOption · none) (s.addOption name (some (String.ofList attached)))
termination_by words => words.length

end CallRouting.CommandLine

import CallRouting.Json.Basic
import CallRouting.Text.Digit
import CallRouting.Text.Hex
import CallRouting.Text.Integer
import CallRouting.Text.Utf16

/-!
# Reading JSON

A reader for JSON texts that says what is wrong and where. White space is the blank, tab, LF and
CR. Beyond the standard it takes `NaN`, `Infinity` and `-Infinity`; of two fields with one name
the later value counts. A whole number of more than 4300 digits is refused, and so are arrays and
objects inside one another beyond the room that the caller grants.

A reader of a part takes the characters that are left and answers with its result and those left
after it. A fault is kept as the count of characters left where it lies, so that its position in
the whole text is a difference of two lengths.
-/

namespace CallRouting.Json

open Text (isDialDigit)

/-! ## Faults -/

/-- What can be wrong with a text that is to be JSON. -/
inductive Fault where
  | expectingValue
  | expectingName
  | expectingColon
  | expectingComma
  | extraData
  | unterminatedString
  | controlCharacter
  | badEscape
  | badUnicodeEscape
  | byteOrderMark
  deriving DecidableEq, Repr

/-- The words for a fault. -/
def Fault.words : Fault → String
  | .expectingValue => "Expecting value"
  | .expectingName => "Expecting property name enclosed in double quotes"
  | .expectingColon => "Expecting ':' delimiter"
  | .expectingComma => "Expecting ',' delimiter"
  | .extraData => "Extra data"
  | .unterminatedString => "Unterminated string starting at"
  | .controlCharacter => "Invalid control character at"
  | .badEscape => "Invalid \\escape"
  | .badUnicodeEscape => "Invalid \\uXXXX escape"
  | .byteOrderMark => "Unexpected UTF-8 BOM (decode using utf-8-sig)"

/-- Why reading stopped. -/
inductive Stop where
  /-- A fault, where so many characters were left. -/
  | fault (cause : Fault) (left : Nat)
  /-- A whole number with too many digits. -/
  | oversized (digits : Nat)
  /-- An array or an object inside too many others. -/
  | tooDeep
  deriving DecidableEq, Repr

/-- What reading a part comes to: a result, or the reason to stop. -/
abbrev Reading := Except Stop

/-- Stops with a fault in front of the characters left. -/
def stopAt {α : Type} (cause : Fault) (left : List Char) : Reading α :=
  .error (.fault cause left.length)

/-! ## White space -/

/-- White space between the parts of a JSON text. -/
def isGap (c : Char) : Bool := c = ' ' || c = '\t' || c = '\n' || c = '\r'

/-- Drops white space. -/
def skip (cs : List Char) : List Char := cs.dropWhile isGap

/-! ## Strings -/

/-- The character that a letter after a backslash stands for. -/
def escaped? (c : Char) : Option Char :=
  if c = '"' || c = '\\' || c = '/' then some c
  else if c = 'b' then some '\x08'
  else if c = 'f' then some '\x0c'
  else if c = 'n' then some '\n'
  else if c = 'r' then some '\r'
  else if c = 't' then some '\t'
  else none

/-- Reads a string up to its closing quote; `opened` is the count of characters left at its
opening quote. -/
def stringParts (opened : Nat) : List Char → Reading (List Text.Utf16.Part × List Char)
  | [] => .error (.fault .unterminatedString opened)
  | '"' :: rest => .ok ([], rest)
  | ['\\'] => .error (.fault .unterminatedString opened)
  | '\\' :: 'u' :: a :: b :: c :: d :: e :: rest =>
    match Text.hexFour? a b c d with
    | none => stopAt .badUnicodeEscape ('u' :: a :: b :: c :: d :: e :: rest)
    | some n => do
      let (parts, left) ← stringParts opened (e :: rest)
      return (.unit n :: parts, left)
  | '\\' :: c :: rest =>
    if c = 'u' then stopAt .badUnicodeEscape ('u' :: rest)
    else
      match escaped? c with
      | none => stopAt .badEscape ('\\' :: c :: rest)
      | some d => do
        let (parts, left) ← stringParts opened rest
        return (.char d :: parts, left)
  | c :: rest =>
    if c.toNat < 0x20 then stopAt .controlCharacter (c :: rest)
    else do
      let (parts, left) ← stringParts opened rest
      return (.char c :: parts, left)

/-- The parts of a text, with the units that its escapes stand for. -/
def partsOf : List Char → List Text.Utf16.Part
  | [] => []
  | '\\' :: 'u' :: a :: b :: c :: d :: rest =>
    match Text.hexFour? a b c d with
    | some n => .unit n :: partsOf rest
    | none => .char 'u' :: partsOf (a :: b :: c :: d :: rest)
  | '\\' :: c :: rest => .char c :: partsOf rest
  | c :: rest => .char c :: partsOf rest

/-- Whether no escape of a text stands for half a pair that is alone. Strings hold whole characters
here, so what is read of a text with such an escape is not what was written. -/
def isPaired (text : String) : Bool := Text.Utf16.isPaired (partsOf text.toList)

/-- Reads a string after its opening quote. -/
def readString (rest : List Char) : Reading (String × List Char) := do
  let (parts, left) ← stringParts (rest.length + 1) rest
  return (String.ofList (Text.Utf16.joinParts parts), left)

/-! ## Numbers -/

/-- Splits the digits off the front. -/
def takeDigits (cs : List Char) : List Char × List Char :=
  (cs.takeWhile isDialDigit, cs.dropWhile isDialDigit)

/-- The value of a run of digits. -/
def digitsValue (ds : List Char) : Nat := Text.ofDigits (ds.map fun c => c.toNat - 0x30)

/-- The digits after a decimal point, if at least one is there. -/
def takeFraction : List Char → Option (List Char × List Char)
  | '.' :: rest =>
    let (ds, left) := takeDigits rest
    if ds.isEmpty then none else some (ds, left)
  | _ => none

/-- The exponent, if the letter and at least one digit are there. -/
def takeExponent : List Char → Option (Int × List Char)
  | e :: rest =>
    if e = 'e' || e = 'E' then
      let (negative, rest) := Text.takeSign rest
      let (ds, left) := takeDigits rest
      if ds.isEmpty then none
      else some (if negative then -(digitsValue ds : Int) else digitsValue ds, left)
    else none
  | [] => none

/-- The digits before a decimal point: a zero alone, or digits that start with another one. -/
def takeWhole : List Char → Option (List Char × List Char)
  | '0' :: rest => some (['0'], rest)
  | cs =>
    let (ds, left) := takeDigits cs
    if ds.isEmpty then none else some (ds, left)

/-- Reads a number; `start` is what was left at its first character. -/
def readNumber (start : List Char) : Reading (Json × List Char) :=
  let (negative, unsigned) :=
    match start with
    | '-' :: rest => (true, rest)
    | rest => (false, rest)
  match takeWhole unsigned with
  | none => stopAt .expectingValue start
  | some (whole, afterWhole) =>
    let (fraction, afterFraction) := (takeFraction afterWhole).getD ([], afterWhole)
    let real (exponent : Int) : Json :=
      .real (.ofDecimal negative (digitsValue (whole ++ fraction)) (exponent - fraction.length))
    match takeExponent afterFraction with
    | some (exponent, left) => .ok (real exponent, left)
    | none =>
      if !fraction.isEmpty then .ok (real 0, afterFraction)
      else if Text.maxDigits < whole.length then .error (.oversized whole.length)
      else
        let n : Int := digitsValue whole
        .ok (.int (if negative then -n else n), afterFraction)

/-! ## Values -/

/-- The values that are written as words. -/
def words : List (List Char × Json) :=
  [("null".toList, .null), ("true".toList, .bool true), ("false".toList, .bool false),
   ("NaN".toList, .real .notANumber), ("Infinity".toList, .real (.infinite false)),
   ("-Infinity".toList, .real (.infinite true))]

/-- Reads a value that is written as a word. -/
def readWord? (cs : List Char) : Option (Json × List Char) :=
  words.findSome? fun (word, value) =>
    if word.isPrefixOf cs then some (value, cs.drop word.length) else none

mutual

/-- Reads a value that starts at the front; `room` is how many containers may lie inside one
another. The first argument bounds how many readers may be nested; a container takes two of them
and at least one character, so twice the count of characters and two more are always enough. -/
def readValue : Nat → Nat → List Char → Reading (Json × List Char)
  | 0, _, cs => stopAt .expectingValue cs
  | fuel + 1, room, cs =>
    match cs with
    | '"' :: rest => do
      let (s, left) ← readString rest
      return (.str s, left)
    | '\x7b' :: rest =>
      match room with
      | 0 => .error .tooDeep
      | room + 1 =>
        match skip rest with
        | '\x7d' :: left => .ok (.obj [], left)
        | inner => do
          let (fields, left) ← readFields fuel room [] inner
          return (.obj fields, left)
    | '[' :: rest =>
      match room with
      | 0 => .error .tooDeep
      | room + 1 =>
        match skip rest with
        | ']' :: left => .ok (.arr [], left)
        | inner => do
          let (items, left) ← readItems fuel room inner
          return (.arr items, left)
    | _ =>
      match readWord? cs with
      | some answer => .ok answer
      | none => readNumber cs

/-- Reads the fields of an object up to its closing bracket; `seen` holds those read before. -/
def readFields :
    Nat → Nat → List (String × Json) → List Char → Reading (List (String × Json) × List Char)
  | 0, _, _, cs => stopAt .expectingName cs
  | fuel + 1, room, seen, cs =>
    match cs with
    | '"' :: rest => do
      let (name, left) ← readString rest
      match skip left with
      | ':' :: rest => do
        let (value, left) ← readValue fuel room (skip rest)
        let seen := setField name value seen
        match skip left with
        | '\x7d' :: left => .ok (seen, left)
        | ',' :: rest => readFields fuel room seen (skip rest)
        | left => stopAt .expectingComma left
      | left => stopAt .expectingColon left
    | _ => stopAt .expectingName cs

/-- Reads the items of an array up to its closing bracket. -/
def readItems : Nat → Nat → List Char → Reading (List Json × List Char)
  | 0, _, cs => stopAt .expectingValue cs
  | fuel + 1, room, cs => do
    let (item, left) ← readValue fuel room cs
    match skip left with
    | ']' :: left => return ([item], left)
    | ',' :: rest => do
      let (items, left) ← readItems fuel room (skip rest)
      return (item :: items, left)
    | left => stopAt .expectingComma left

end

/-- Reads a text that holds one value and white space around it. -/
def readChars (room : Nat) (cs : List Char) : Reading Json := do
  let (value, left) ← readValue (2 * cs.length + 2) room (skip cs)
  match skip left with
  | [] => return value
  | extra => stopAt .extraData extra

/-! ## Whole texts -/

/-- Why a text is not accepted as JSON. -/
inductive ReadError where
  /-- A fault at a position, with the line and the column of it. -/
  | malformed (cause : Fault) (line column position : Nat)
  /-- A whole number with too many digits. -/
  | oversized (digits : Nat)
  /-- An array or an object inside too many others. -/
  | tooDeep
  deriving DecidableEq, Repr

/-- The sentence that reports why a text is not accepted. -/
def ReadError.message : ReadError → String
  | .malformed cause line column position =>
    s!"{cause.words}: line {line} column {column} (char {position})"
  | .oversized digits => (Text.IntegerFault.oversized digits).message
  | .tooDeep => "Arrays and objects lie too deep inside one another"

/-- The fault with its place: lines are counted from one, and so are the characters of the line
the fault lies in. -/
def ReadError.place (cs : List Char) (cause : Fault) (position : Nat) : ReadError :=
  let before := cs.take position
  let lastLine := before.reverse.takeWhile (· ≠ '\n')
  .malformed cause (before.count '\n' + 1) (lastLine.length + 1) position

/-- Reads a text in which no more than `room` containers lie inside one another. -/
def read (room : Nat) (s : String) : Except ReadError Json :=
  let cs := s.toList
  if cs.head? = some '\ufeff' then .error (.place cs .byteOrderMark 0)
  else
    match readChars room cs with
    | .ok value => .ok value
    | .error (.fault cause left) => .error (.place cs cause (cs.length - left))
    | .error (.oversized digits) => .error (.oversized digits)
    | .error .tooDeep => .error .tooDeep

end CallRouting.Json

import CallRouting.Double.Shortest
import CallRouting.Json.Basic
import CallRouting.Text.Hex

/-!
# Writing JSON

Two forms are written. *One line* puts `", "` between items and `": "` after names. *Indented*
puts every item on a line of its own, two blanks deeper than its container; empty containers stay
on one line. Within strings the quote, the backslash and the characters below U+0020 are escaped;
with ASCII output every character past the tilde is escaped too, beyond U+FFFF as a surrogate
pair.
-/

namespace CallRouting.Json

/-- Which characters may stand for themselves in strings. -/
inductive Charset where
  | unicode
  | ascii
  deriving DecidableEq, Repr

/-! ## Strings -/

/-- The escape of one unit of sixteen bits. -/
def unitEscape (n : Nat) : List Char := '\\' :: 'u' :: Text.hexDigits 4 n

/-- The escape of a code point: one unit, or beyond U+FFFF two surrogates. -/
def codeEscape (n : Nat) : List Char :=
  if n < 0x10000 then unitEscape n
  else
    unitEscape (0xD800 + (n - 0x10000) / 0x400) ++ unitEscape (0xDC00 + (n - 0x10000) % 0x400)

/-- One character of a string. -/
def escapeChar (charset : Charset) (c : Char) : List Char :=
  if c = '"' then ['\\', '"']
  else if c = '\\' then ['\\', '\\']
  else if c = '\n' then ['\\', 'n']
  else if c = '\r' then ['\\', 'r']
  else if c = '\t' then ['\\', 't']
  else if c = '\x08' then ['\\', 'b']
  else if c = '\x0c' then ['\\', 'f']
  else if c.toNat < 0x20 then unitEscape c.toNat
  else if charset = .ascii && 0x7E < c.toNat then codeEscape c.toNat
  else [c]

/-- A string with its quotes. -/
def stringChars (charset : Charset) (s : String) : List Char :=
  '"' :: s.toList.flatMap (escapeChar charset) ++ ['"']

/-! ## Values -/

/-- The words for what is no finite number. -/
def realWords : Double.Words := ⟨"Infinity", "NaN"⟩

/-- How a container's items are set apart: after the opening bracket, between two items, and
before the closing bracket. -/
structure Gaps where
  opening : List Char
  between : List Char
  closing : List Char

/-- A layout gives the gaps of a container that lies so many containers deep. -/
abbrev Layout := Nat → Gaps

/-- Everything on one line. -/
def oneLine : Layout := fun _ => ⟨[], [',', ' '], []⟩

/-- A line break and the indentation of a depth. -/
def lineBreak (depth : Nat) : List Char := '\n' :: List.replicate (2 * depth) ' '

/-- Each item on a line of its own. -/
def indented : Layout := fun depth =>
  ⟨lineBreak (depth + 1), ',' :: lineBreak (depth + 1), lineBreak depth⟩

mutual

/-- The text of a value that lies so many containers deep. -/
def chars (charset : Charset) (layout : Layout) (depth : Nat) : Json → List Char
  | .null => "null".toList
  | .bool b => (if b then "true" else "false").toList
  | .int n => (toString n).toList
  | .real x => x.chars realWords
  | .str s => stringChars charset s
  | .arr [] => ['[', ']']
  | .arr (item :: rest) =>
    '[' :: (layout depth).opening ++ chars charset layout (depth + 1) item ++
      itemChars charset layout depth rest ++ (layout depth).closing ++ [']']
  | .obj [] => ['\x7b', '\x7d']
  | .obj ((name, value) :: rest) =>
    '\x7b' :: (layout depth).opening ++ stringChars charset name ++ [':', ' '] ++
      chars charset layout (depth + 1) value ++ fieldChars charset layout depth rest ++
      (layout depth).closing ++ ['\x7d']

/-- The items after the first, each with the gap before it. -/
def itemChars (charset : Charset) (layout : Layout) (depth : Nat) : List Json → List Char
  | [] => []
  | item :: rest =>
    (layout depth).between ++ chars charset layout (depth + 1) item ++
      itemChars charset layout depth rest

/-- The fields after the first, each with the gap before it. -/
def fieldChars (charset : Charset) (layout : Layout) (depth : Nat) :
    List (String × Json) → List Char
  | [] => []
  | (name, value) :: rest =>
    (layout depth).between ++ stringChars charset name ++ [':', ' '] ++
      chars charset layout (depth + 1) value ++ fieldChars charset layout depth rest

end

/-- A value on one line. -/
def line (charset : Charset) (value : Json) : String :=
  String.ofList (chars charset oneLine 0 value)

/-- A value over several lines. -/
def page (value : Json) : String := String.ofList (chars .unicode indented 0 value)

end CallRouting.Json

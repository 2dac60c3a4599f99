import CallRouting.Text.Utf32
import CallRouting.Text.Utf8

/-!
# Encodings of JSON texts

A JSON text comes as bytes in UTF-8, UTF-16 or UTF-32. A mark at its start tells which. Without a
mark the zeros among its first bytes do, for the first two characters of a JSON text are ASCII.
-/

namespace CallRouting.Json

open Text (ByteOrder)

/-- An encoding of characters as bytes. -/
inductive Encoding where
  | utf8
  | utf16 (order : ByteOrder)
  | utf32 (order : ByteOrder)
  deriving DecidableEq, Repr

namespace Encoding

/-- The marks that a text may start with. A mark of UTF-32 starts as one of UTF-16 does, so it is
looked for before. -/
def marks : List (List UInt8 × Encoding) :=
  [([0xFF, 0xFE, 0, 0], .utf32 .little), ([0, 0, 0xFE, 0xFF], .utf32 .big),
   ([0xFF, 0xFE], .utf16 .little), ([0xFE, 0xFF], .utf16 .big), ([0xEF, 0xBB, 0xBF], .utf8)]

/-- The encoding of a text with a mark, and what follows the mark. -/
def marked? (bytes : List UInt8) : Option (Encoding × List UInt8) :=
  marks.findSome? fun (mark, encoding) =>
    if mark.isPrefixOf bytes then some (encoding, bytes.drop mark.length) else none

/-- The encoding of a text without a mark. -/
def ofZeros : List UInt8 → Encoding
  | [a, b] => if a = 0 then .utf16 .big else if b = 0 then .utf16 .little else .utf8
  | a :: b :: c :: d :: _ =>
    if a = 0 then (if b = 0 then .utf32 .big else .utf16 .big)
    else if b = 0 then (if c = 0 ∧ d = 0 then .utf32 .little else .utf16 .little)
    else .utf8
  | _ => .utf8

/-- Reads bytes in an encoding; none if they are no text in it. -/
def decode? : Encoding → List UInt8 → Option String
  | .utf8, bytes => (Text.Utf8.decode bytes).toOption
  | .utf16 order, bytes => (Text.Utf16.decode? order bytes).map String.ofList
  | .utf32 order, bytes => (Text.Utf32.decode? order bytes).map String.ofList

end Encoding

/-- Reads the bytes of a JSON text. -/
def decode? (bytes : List UInt8) : Option String :=
  let (encoding, rest) := (Encoding.marked? bytes).getD (Encoding.ofZeros bytes, bytes)
  encoding.decode? rest

end CallRouting.Json

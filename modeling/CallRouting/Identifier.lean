import CallRouting.Text.Hex

/-!
# Identifiers

A plan that is handed out gets a random identifier: sixteen bytes, of which six bits are fixed and
tell that the rest is random, in hexadecimal digits and in five parts.
-/

namespace CallRouting

namespace Identifier

/-- Fixes the bits that tell how an identifier was made. -/
def mark : List UInt8 → List UInt8
  | [a, b, c, d, e, f, g, h, i, j, k, l, m, n, o, p] =>
    [a, b, c, d, e, f, g &&& 0x0F ||| 0x40, h, i &&& 0x3F ||| 0x80, j, k, l, m, n, o, p]
  | bytes => bytes

/-- Bytes in hexadecimal digits. -/
def digits (bytes : List UInt8) : List Char := bytes.flatMap fun b => Text.hexDigits 2 b.toNat

/-- Cuts digits into parts of given lengths, with hyphens between them. -/
def parts : List Nat → List Char → List Char
  | [], cs => cs
  | n :: rest, cs => cs.take n ++ '-' :: parts rest (cs.drop n)

/-- The identifier that sixteen bytes give. -/
def ofBytes (bytes : List UInt8) : String :=
  String.ofList (parts [8, 4, 4, 4] (digits (mark bytes)))

/-- The fixed bits show in two of the digits. -/
example : ofBytes (List.replicate 16 0) = "00000000-0000-4000-8000-000000000000" := by decide

end Identifier

end CallRouting

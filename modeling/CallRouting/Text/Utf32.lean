import CallRouting.Text.Utf16

/-!
# UTF-32

Characters as numbers of thirty-two bits, each the number of its code point.
-/

namespace CallRouting.Text.Utf32

/-- The greatest code point. -/
def lastCode : Nat := 0x10FFFF

/-- Reads a whole sequence of bytes, four for each character; none if bytes are left over, or a
number lies past the last code point or is half a pair. -/
def decode? (order : ByteOrder) : List UInt8 → Option (List Char)
  | [] => some []
  | a :: b :: c :: d :: rest =>
    let n := order.value [a, b, c, d]
    if lastCode < n || Utf16.isHigh n || Utf16.isLow n then none
    else (Char.ofNat n :: ·) <$> decode? order rest
  | _ => none

/-- A bracket stands in four bytes. -/
example : decode? .little [0x5B, 0, 0, 0] = some ['['] := by decide

/-- There is no character past the last code point. -/
example : decode? .big [0, 0x11, 0, 0] = none := by decide

end CallRouting.Text.Utf32

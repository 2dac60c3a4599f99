/-!
# Byte order

Numbers of several bytes are stored with the most significant byte first or last.
-/

namespace CallRouting.Text

/-- The order in which the bytes of a number stand: most significant first or last. -/
inductive ByteOrder where
  | big
  | little
  deriving DecidableEq, Repr

namespace ByteOrder

/-- The number that bytes make with the most significant one first. -/
def bigValue (bytes : List UInt8) : Nat := bytes.foldl (fun n b => 0x100 * n + b.toNat) 0

/-- The number that bytes make. -/
def value : ByteOrder → List UInt8 → Nat
  | .big, bytes => bigValue bytes
  | .little, bytes => bigValue bytes.reverse

/-- Reading backwards is reading in the other order. -/
theorem value_little (bytes : List UInt8) : little.value bytes = big.value bytes.reverse := rfl

end ByteOrder

end CallRouting.Text

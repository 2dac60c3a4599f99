import CallRouting.Text.ByteOrder

/-!
# UTF-16

Characters as units of sixteen bits. A character past the first 65536 code points is a pair of
units, the halves of which lie in ranges of their own. Half a pair that stands alone is no
character, and no text of this library holds one: bytes with such a half are refused, and where a
reader goes on past it, the replacement character stands in its place. `isPaired` tells the parts
that need no such stand-in; what is said of texts from outside is said of those.
-/

namespace CallRouting.Text.Utf16

/-! ## Units -/

/-- A part of a text: a character, or a unit of sixteen bits. -/
inductive Part where
  | char (c : Char)
  | unit (n : Nat)
  deriving DecidableEq, Repr

/-- The first half of a pair. -/
def isHigh (n : Nat) : Bool := 0xD800 ≤ n && n < 0xDC00

/-- The second half of a pair. -/
def isLow (n : Nat) : Bool := 0xDC00 ≤ n && n < 0xE000

/-- The character of a unit that stands alone. Half a pair is none: the replacement character
stands for it, so that parts which are not paired may be read alike although they differ. -/
def loneUnit (n : Nat) : Char := if isHigh n || isLow n then '\ufffd' else Char.ofNat n

/-- The characters of parts: two units that follow one another may be a pair. -/
def joinParts : List Part → List Char
  | [] => []
  | .char c :: rest => c :: joinParts rest
  | [.unit n] => [loneUnit n]
  | .unit n :: .char c :: rest => loneUnit n :: c :: joinParts rest
  | .unit n :: .unit m :: rest =>
    if isHigh n && isLow m then
      Char.ofNat (0x10000 + (n - 0xD800) * 0x400 + (m - 0xDC00)) :: joinParts rest
    else loneUnit n :: joinParts (.unit m :: rest)

/-- A pair of halves is one character. -/
theorem joinParts_pair {n m : Nat} (hn : isHigh n = true) (hm : isLow m = true)
    (rest : List Part) :
    joinParts (.unit n :: .unit m :: rest) =
      Char.ofNat (0x10000 + (n - 0xD800) * 0x400 + (m - 0xDC00)) :: joinParts rest := by
  simp [joinParts, hn, hm]

/-- Whether the halves among parts form pairs; `awaits` tells that a first half has just come. -/
def isPairedAfter : (awaits : Bool) → List Part → Bool
  | awaits, [] => !awaits
  | awaits, .char _ :: rest => !awaits && isPairedAfter false rest
  | true, .unit n :: rest => isLow n && isPairedAfter false rest
  | false, .unit n :: rest => !isLow n && isPairedAfter (isHigh n) rest

/-- Whether no half of a pair stands alone. -/
def isPaired (parts : List Part) : Bool := isPairedAfter false parts

/-- A unit that is no half leaves the pairs as they are. -/
theorem isPaired_unit {n : Nat} (hhigh : isHigh n = false) (hlow : isLow n = false)
    (rest : List Part) : isPaired (.unit n :: rest) = isPaired rest := by
  simp [isPaired, isPairedAfter, hhigh, hlow]

/-- A pair of halves leaves the pairs behind it as they are. -/
theorem isPaired_pair {n m : Nat} (hn : isHigh n = true) (hm : isLow m = true)
    (rest : List Part) : isPaired (.unit n :: .unit m :: rest) = isPaired rest := by
  have hlow : isLow n = false := by
    simp only [isHigh, isLow, Bool.and_eq_true, Bool.and_eq_false_iff, decide_eq_true_eq,
      decide_eq_false_iff_not] at hn ⊢
    omega
  simp [isPaired, isPairedAfter, hn, hm, hlow]

/-! ## Bytes -/

/-- The units that bytes make, two for each; none if a byte is left over. -/
def units? (order : ByteOrder) : List UInt8 → Option (List Nat)
  | [] => some []
  | [_] => none
  | a :: b :: rest => (order.value [a, b] :: ·) <$> units? order rest

/-- Reads a whole sequence of bytes; none if a half stands alone. -/
def decode? (order : ByteOrder) (bytes : List UInt8) : Option (List Char) := do
  let parts := (← units? order bytes).map Part.unit
  if isPaired parts then some (joinParts parts) else none

/-- A bracket stands in two bytes. -/
example : decode? .big [0, 0x5B] = some ['['] := by decide

/-- A first half without a second one is a fault. -/
example : decode? .big [0xD8, 0, 0, 0x5B] = none := by decide

/-- A byte left over is a fault. -/
example : decode? .little [0x5B, 0, 0x5D] = none := by decide

end CallRouting.Text.Utf16

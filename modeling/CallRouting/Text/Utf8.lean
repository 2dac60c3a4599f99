import CallRouting.Text.Hex

/-!
# UTF-8

Reading bytes as UTF-8. A lead byte fixes how many bytes follow and, to keep out overlong forms,
surrogates and numbers past the last code point, which values the first of them may have. A
fault names the bytes that belong to it: the lead byte and the bytes accepted after it, or
everything from the lead byte on when the data ends early.
-/

namespace CallRouting.Text.Utf8

/-- What is wrong with the bytes of a fault. -/
inductive Reason where
  | badLead
  | badFollow
  | cutShort
  deriving DecidableEq, Repr

/-- The words for a reason. -/
def Reason.words : Reason → String
  | .badLead => "invalid start byte"
  | .badFollow => "invalid continuation byte"
  | .cutShort => "unexpected end of data"

/-- A place where bytes are not UTF-8: the lead byte, its position, and the count of bytes that
belong to the fault. -/
structure Fault where
  lead : UInt8
  start : Nat
  count : Nat
  reason : Reason
  deriving DecidableEq, Repr

/-- The sentence that reports the fault. -/
def Fault.message (f : Fault) : String :=
  let place :=
    if f.count = 1 then
      s!"byte 0x{String.ofList (hexDigits 2 f.lead.toNat)} in position {f.start}"
    else s!"bytes in position {f.start}-{f.start + f.count - 1}"
  s!"'utf-8' codec can't decode {place}: {f.reason.words}"

/-- What a lead byte announces: its payload, the count of bytes to follow, and the least and
greatest value of the first of them. -/
structure Lead where
  payload : Nat
  follow : Nat
  low : UInt8
  high : UInt8

/-- The lead bytes past ASCII. -/
def lead? (b : UInt8) : Option Lead :=
  let n := b.toNat
  if n < 0xC2 then none
  else if n < 0xE0 then some ⟨n - 0xC0, 1, 0x80, 0xBF⟩
  else if n = 0xE0 then some ⟨0, 2, 0xA0, 0xBF⟩
  else if n = 0xED then some ⟨13, 2, 0x80, 0x9F⟩
  else if n < 0xF0 then some ⟨n - 0xE0, 2, 0x80, 0xBF⟩
  else if n = 0xF0 then some ⟨0, 3, 0x90, 0xBF⟩
  else if n < 0xF4 then some ⟨n - 0xF0, 3, 0x80, 0xBF⟩
  else if n = 0xF4 then some ⟨4, 3, 0x80, 0x8F⟩
  else none

/-- Where the reader stands: between characters, or inside one whose lead byte stood at `start`
with `taken` bytes read so far, `owed` still to come and the next one bounded. -/
inductive State where
  | between
  | inside (lead : UInt8) (start taken owed : Nat) (low high : UInt8) (value : Nat)

/-- Reads bytes from a state and a position on. -/
def decodeFrom : State → Nat → List UInt8 → Except Fault (List Char)
  | .between, _, [] => .ok []
  | .inside lead start taken _ _ _ _, _, [] => .error ⟨lead, start, taken, .cutShort⟩
  | .between, pos, b :: rest =>
    if b < 0x80 then (Char.ofNat b.toNat :: ·) <$> decodeFrom .between (pos + 1) rest
    else
      match lead? b with
      | none => .error ⟨b, pos, 1, .badLead⟩
      | some l => decodeFrom (.inside b pos 1 l.follow l.low l.high l.payload) (pos + 1) rest
  | .inside lead start taken owed low high value, pos, b :: rest =>
    if b < low || high < b then .error ⟨lead, start, taken, .badFollow⟩
    else
      let value := value * 64 + (b.toNat - 0x80)
      if owed ≤ 1 then (Char.ofNat value :: ·) <$> decodeFrom .between (pos + 1) rest
      else decodeFrom (.inside lead start (taken + 1) (owed - 1) 0x80 0xBF value) (pos + 1) rest

/-- Reads a whole sequence of bytes. -/
def decode (bytes : List UInt8) : Except Fault String :=
  String.ofList <$> decodeFrom .between 0 bytes

end CallRouting.Text.Utf8

import CallRouting.Text.Hex

/-!
# Percent escapes

In an address a percent sign and two hexadecimal digits stand for a byte. A percent sign that is
followed by anything else stands for itself.
-/

namespace CallRouting.Text

/-- Reads the escapes of a text; each byte becomes the character of its number. -/
def percentDecode : List Char → List Char
  | [] => []
  | '%' :: a :: b :: rest =>
    match hexValue? a, hexValue? b with
    | some high, some low => Char.ofNat (16 * high + low) :: percentDecode rest
    | _, _ => '%' :: percentDecode (a :: b :: rest)
  | c :: rest => c :: percentDecode rest

/-- Without a percent sign a text stays as it is. -/
theorem percentDecode_of_not_mem {cs : List Char} (h : '%' ∉ cs) : percentDecode cs = cs := by
  induction cs with
  | nil => rfl
  | cons c rest ih =>
    simp only [List.mem_cons, not_or] at h
    rw [percentDecode.eq_def]
    split
    · next heq => exact absurd heq (by simp)
    · next heq => exact absurd (List.cons.inj heq).1.symm h.1
    · next heq =>
      obtain ⟨rfl, rfl⟩ := List.cons.inj heq
      rw [ih h.2]

/-- A slash may be escaped. -/
example : percentDecode "a%2Fb%2f%".toList = "a/b/%".toList := by decide

end CallRouting.Text

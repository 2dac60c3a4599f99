import CallRouting.Text.CodeRange

/-!
# White space

The white space of Unicode 14 together with the four separators of ASCII (U+001C to U+001F).
Input read from a terminal loses the white space at both ends before it is used.
-/

namespace CallRouting.Text

/-- The ranges of white space. -/
def blankRanges : List (Nat × Nat) :=
    [(0x9, 0xD), (0x1C, 0x20), (0x85, 0x85), (0xA0, 0xA0), (0x1680, 0x1680), (0x2000, 0x200A),
     (0x2028, 0x2029), (0x202F, 0x202F), (0x205F, 0x205F), (0x3000, 0x3000)]

/-- A white space character. -/
def isBlank (c : Char) : Bool := inRanges blankRanges c.toNat

/-- Core's white space is white space here. -/
theorem isBlank_of_isWhitespace (c : Char) (h : c.isWhitespace = true) : isBlank c = true := by
  simp only [Char.isWhitespace, Bool.or_eq_true, decide_eq_true_eq] at h
  rcases h with ((rfl | rfl) | rfl) | rfl <;> decide

/-- Drops white space from the front of a list of characters. -/
def dropBlank (cs : List Char) : List Char := cs.dropWhile isBlank

/-- Drops white space from both ends. -/
def strip (s : String) : String :=
  String.ofList (dropBlank (dropBlank s.toList).reverse).reverse

/-- Reads line ends of every kind, CR LF and CR alone included, as LF. -/
def unifyLines : List Char → List Char
  | [] => []
  | '\r' :: '\n' :: rest => '\n' :: unifyLines rest
  | c :: rest => (if c = '\r' then '\n' else c) :: unifyLines rest

end CallRouting.Text

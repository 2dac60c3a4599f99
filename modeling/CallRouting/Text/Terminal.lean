/-!
# Control sequences of terminals

A terminal takes the escape character and an opening bracket for the start of a sequence that
sets colours or moves the cursor: parameters follow, and a letter ends it. Text that does not go
to a terminal is freed of such sequences. What is joined when a sequence is dropped is not looked
at again.
-/

namespace CallRouting.Text

/-- A parameter of a control sequence. -/
def isControlParameter (c : Char) : Bool := c = ';' || c = '?' || ('0' ≤ c && c ≤ '9')

/-- The count of characters of the control sequence that a text starts with, zero if it starts
with none. -/
def controlLength : List Char → Nat
  | '\x1b' :: '[' :: rest =>
    let parameters := rest.takeWhile isControlParameter
    if (rest.drop parameters.length).head?.any Char.isAlpha then parameters.length + 3 else 0
  | _ => 0

/-- Drops control sequences, after so many characters that belong to one. -/
def dropControlsAfter : Nat → List Char → List Char
  | _, [] => []
  | inside + 1, _ :: rest => dropControlsAfter inside rest
  | 0, c :: rest =>
    match controlLength (c :: rest) with
    | 0 => c :: dropControlsAfter 0 rest
    | more + 1 => dropControlsAfter more rest

/-- Drops the control sequences of a text. -/
def dropControls (s : String) : String := String.ofList (dropControlsAfter 0 s.toList)

/-- Without an escape character a text stays as it is. -/
theorem dropControlsAfter_of_not_mem {cs : List Char} (h : '\x1b' ∉ cs) :
    dropControlsAfter 0 cs = cs := by
  induction cs with
  | nil => rfl
  | cons c rest ih =>
    simp only [List.mem_cons, not_or] at h
    have start : controlLength (c :: rest) = 0 := by
      unfold controlLength
      split
      · next heq => exact absurd (List.cons.inj heq).1.symm h.1
      · rfl
    simp [dropControlsAfter, start, ih h.2]

/-- What is joined when a sequence is dropped stays. -/
example : dropControlsAfter 0 "\x1b[\x1b[1m1m".toList = "\x1b[1m".toList := by decide

end CallRouting.Text

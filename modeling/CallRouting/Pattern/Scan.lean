import CallRouting.Pattern.Basic
import CallRouting.Pattern.Error

/-!
# Reading patterns

A pattern is read from left to right, one character at a time. Outside a group a character is an
atom of its own, or it quantifies the atom before it, or it opens a group. Inside a group the
characters up to the first `]` are collected into alternatives; `+`, `?` and `*` are ordinary
there, and `(` and `)` are dropped. At the end an unquantified `Z` that came last turns into the
atom that takes all that is left, and the capture groups are numbered.

What is wrong inside a group is reported when the group closes: first a group inside the group,
at its own bracket, then too few alternatives, then an empty one, both at the opening bracket. A
group that never closes is reported as that alone.
-/

namespace CallRouting

/-- The limits that a pattern has to keep, and how many atoms deep the search for a text may go. -/
structure PatternLimits where
  maxLength : Int
  maxQuantifiers : Int
  /-- What the caller of a search leaves it; a pattern is read without regard to it. -/
  room : Nat
  deriving DecidableEq, Repr

namespace Pattern

/-! ## The state of the reader -/

/-- A group whose closing bracket has not come yet. -/
structure OpenChoice where
  /-- The position of the opening bracket. -/
  start : Nat
  /-- The alternatives that are complete, last one first. -/
  complete : List (List Slot)
  /-- The alternative being read, last character first. -/
  current : List Slot
  /-- The position of the first bracket that would open a group inside this one. -/
  nested : Option Nat
  deriving DecidableEq, Repr

/-- What has been read so far. -/
structure Progress where
  position : Nat
  /-- The count of quantifiers outside groups. -/
  quantified : Nat
  /-- The atoms, last one first. -/
  atoms : List Atom
  opened : Option OpenChoice
  deriving DecidableEq, Repr

/-- Nothing has been read. -/
def Progress.start : Progress := ⟨0, 0, [], none⟩

/-- A fault and, unless it concerns the whole text, its position. -/
abbrev Misread := PatternFault × Option Nat

/-! ## One character -/

/-- A character inside a group, up to its closing bracket. -/
def OpenChoice.extend (choice : OpenChoice) (position : Nat) (c : Char) : OpenChoice :=
  if c = '|' then { choice with complete := choice.current.reverse :: choice.complete, current := [] }
  else if c = '(' ∨ c = ')' then choice
  else if c = '[' then { choice with nested := choice.nested.or (some position) }
  else { choice with current := ⟨position, .ofToken c⟩ :: choice.current }

/-- The alternatives of a group whose closing bracket has come. -/
def OpenChoice.close (choice : OpenChoice) : Except Misread (List (List Slot)) :=
  let alternatives := (choice.current.reverse :: choice.complete).reverse
  match choice.nested with
  | some p => .error (.nestedChoice, some p)
  | none =>
    if alternatives.length < 2 then .error (.tooFewAlternatives, some choice.start)
    else if alternatives.any List.isEmpty then .error (.emptyAlternative, some choice.start)
    else .ok alternatives

/-- Quantifies the atom read last; `position` is that of the quantifier. -/
def quantifyLast (q : Quantifier) (position : Nat) : List Atom → Except Misread (List Atom)
  | [] => .error (.nothingToRepeat q.token, some position)
  | atom :: before =>
    match atom.piece with
    | .choice _ | .rest => .error (.quantifiedChoice, some position)
    | .single _ (some _) => .error (.repeatedQuantifier q.token, some position)
    | .single cls none => .ok ({ atom with piece := .single cls (some q) } :: before)

/-- A character outside of groups. -/
def Progress.readOutside (maxQuantifiers : Int) (s : Progress) (c : Char) :
    Except Misread Progress := do
  match Quantifier.ofToken? c with
  | some q =>
    let atoms ← quantifyLast q s.position s.atoms
    if maxQuantifiers < s.quantified + 1 then
      throw (.tooManyQuantifiers maxQuantifiers, none)
    return { s with position := s.position + 1, quantified := s.quantified + 1, atoms }
  | none =>
    if c = '[' then
      return { s with position := s.position + 1, opened := some ⟨s.position, [], [], none⟩ }
    else if c = ']' then throw (.strayBracket, some s.position)
    else if c = '|' then throw (.strayBar, some s.position)
    else
      let atom : Atom := ⟨s.position, .single (.ofToken c) none, none⟩
      return { s with position := s.position + 1, atoms := atom :: s.atoms }

/-- A character inside a group. -/
def Progress.readInside (s : Progress) (choice : OpenChoice) (c : Char) :
    Except Misread Progress := do
  if c = ']' then
    let alternatives ← choice.close
    let atom : Atom := ⟨choice.start, .choice alternatives, none⟩
    return { s with position := s.position + 1, atoms := atom :: s.atoms, opened := none }
  else
    return { s with position := s.position + 1, opened := some (choice.extend s.position c) }

/-- The next character. -/
def Progress.read (maxQuantifiers : Int) (s : Progress) (c : Char) : Except Misread Progress :=
  match s.opened with
  | none => s.readOutside maxQuantifiers c
  | some choice => s.readInside choice c

/-- Every character moves the position by one. -/
theorem Progress.position_read {m : Int} {s t : Progress} {c : Char} (h : s.read m c = .ok t) :
    t.position = s.position + 1 := by
  unfold Progress.read at h
  split at h
  · simp only [readOutside] at h
    split at h
    · simp only [bind, Except.bind] at h
      split at h
      · cases h
      · split at h <;> cases h
        rfl
    · repeat' split at h
      all_goals cases h
      all_goals rfl
  · simp only [readInside] at h
    split at h
    · simp only [bind, Except.bind] at h
      split at h <;> cases h
      rfl
    · cases h
      rfl

/-! ## The whole text -/

/-- Turns an unquantified `Z` that came last into the atom that takes all that is left; the atoms
are given last one first. -/
def markRest : List Atom → List Atom
  | ⟨position, .single .nonZero none, group⟩ :: before => ⟨position, .rest, group⟩ :: before
  | atoms => atoms

/-- The atoms of a whole text, not yet numbered. -/
def scan (maxQuantifiers : Int) (cs : List Char) : Except Misread (List Atom) := do
  let last ← cs.foldlM (Progress.read maxQuantifiers) .start
  match last.opened with
  | some choice => throw (.unclosedChoice, some choice.start)
  | none => return (markRest last.atoms).reverse

/-! ## Capture groups -/

/-- Whether a class continues the capture group of the class before it. -/
def continuesGroup (previous cls : CharClass) : Bool := cls = previous || cls = .nextDigit

/-- The group of a capturing atom: that of the atom before if it is continued, else a new one.
`previous` is the class of the atom before, if that one captures, with its group; `count` is the
count of groups so far. -/
def nextGroup (previous : Option (CharClass × Nat)) (count : Nat) (cls : CharClass) : Nat :=
  match previous with
  | some (before, group) => if continuesGroup before cls then group else count
  | none => count

/-- Numbers the capture groups from left to right. The answer holds the numbered atoms and the
count of groups at the end. -/
def numberGroups : Option (CharClass × Nat) → Nat → List Atom → List Atom × Nat
  | _, count, [] => ([], count)
  | previous, count, atom :: rest =>
    match atom.piece.capturing? with
    | none =>
      let tail := numberGroups none count rest
      (atom :: tail.1, tail.2)
    | some cls =>
      let group := nextGroup previous count cls
      let tail := numberGroups (some (cls, group)) (max count (group + 1)) rest
      ({ atom with group := some group } :: tail.1, tail.2)

/-- Numbering keeps the count of atoms. -/
theorem length_numberGroups (previous : Option (CharClass × Nat)) (count : Nat)
    (atoms : List Atom) : (numberGroups previous count atoms).1.length = atoms.length := by
  induction atoms generalizing previous count with
  | nil => rfl
  | cons atom rest ih =>
    unfold numberGroups
    split <;> simp [ih]

/-- Reads a pattern. -/
def parse (limits : PatternLimits) (source : String) : Except PatternError Pattern :=
  let cs := source.toList
  if cs.isEmpty then .error ⟨.empty, source, none⟩
  else if limits.maxLength < cs.length then .error ⟨.tooLong limits.maxLength, source, none⟩
  else
    match scan limits.maxQuantifiers cs with
    | .error (fault, position) => .error ⟨fault, source, position⟩
    | .ok atoms =>
      let (numbered, count) := numberGroups none 0 atoms
      .ok ⟨source, numbered, count⟩

end Pattern

end CallRouting

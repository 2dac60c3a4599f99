import CallRouting.Pattern.Takes
import Std.Data.HashSet

/-!
# Fitting a text to a pattern

A text fits a pattern if its atoms can take it from left to right with nothing left over. Each
atom tries its ways to take in order, and falls back to the next one when the atoms after it
cannot take what is left. `search` says that in so many words. `searchFrom` gives the same answer
and keeps a journal besides: each atom writes the span it tries over the one it tried before, and a
place, that is an atom and a position in the text, from which the search has failed is never opened
again, so that the work is bounded by the count of places times the length of the text.

The search goes one step deeper with every atom that takes its part, and its caller leaves it room
for so many steps only. A pattern with more atoms than that is `tooDeep` for a text that gets the
search so far.

When the search has found its way, the spans of the journal are cut out of the text as segments,
and the segments are given to the capture groups one after the other.
-/

namespace CallRouting

namespace Pattern

/-! ## The search -/

/-- How many characters each piece takes, or none if the pieces cannot take the text. -/
def search : List Piece → List Char → Option (List Nat)
  | [], cs => if cs.isEmpty then some [] else none
  | piece :: rest, cs =>
    (piece.takes cs).findSome? fun t => (search rest t.left).map (t.count :: ·)

/-- A place in the search: the count of atoms and of characters before it. -/
abbrev Place := Nat × Nat

/-- A stretch of a text: the position where it starts and the one where it stops. -/
structure Span where
  start : Nat
  stop : Nat
  deriving DecidableEq, Repr

/-- The characters of a text that lie in a span. -/
def Span.slice (span : Span) (cs : List Char) : List Char :=
  (cs.drop span.start).take (span.stop - span.start)

/-- What the search remembers: the places from which it failed, those that it opened, last one
first, and for each atom the span that it tried last, if it tried any. -/
structure Journal where
  failed : Std.HashSet Place
  opened : List Place
  spans : List (Option Span)

/-- Nothing has been tried for so many atoms. -/
def Journal.blank (atoms : Nat) : Journal := ⟨∅, [], List.replicate atoms none⟩

/-- A place is opened. -/
def Journal.enter (j : Journal) (place : Place) : Journal :=
  { j with opened := place :: j.opened }

/-- The search failed from a place. -/
def Journal.fail (j : Journal) (place : Place) : Journal :=
  { j with failed := j.failed.insert place }

/-- The atom at a place tries to take so many characters. -/
def Journal.record (j : Journal) (place : Place) (count : Nat) : Journal :=
  { j with spans := j.spans.set place.1 (some ⟨place.2, place.2 + count⟩) }

/-- Tries ways to take from a place one after the other; `go` is the search for the pieces that
follow. -/
def tryTakes (go : Take → Journal → Bool × Journal) (place : Place) :
    List Take → Journal → Bool × Journal
  | [], j => (false, j.fail place)
  | t :: rest, j =>
    match go t (j.record place t.count) with
    | (true, j) => (true, j)
    | (false, j) => tryTakes go place rest j

/-- The search from a place, with a journal. -/
def searchFrom : List Piece → Place → List Char → Journal → Bool × Journal
  | [], _, cs, j => (cs.isEmpty, j)
  | piece :: rest, place, cs, j =>
    if j.failed.contains place then (false, j)
    else
      let go (t : Take) := searchFrom rest (place.1 + 1, place.2 + t.count) t.left
      tryTakes go place (piece.takes cs) (j.enter place)

/-! ## Depth -/

/-- Whether the search for a text goes deeper than there is room: the atoms that there is room for
can take the beginning of the text. -/
def tooDeep (p : Pattern) (room : Nat) (text : String) : Bool :=
  let start := (p.atoms.take room).map (·.piece) ++ [.rest]
  room < p.atoms.length && (searchFrom start (0, 0) text.toList (.blank start.length)).1

/-- There is room for the search of a pattern with few atoms. -/
theorem tooDeep_eq_false {p : Pattern} {room : Nat} (h : p.atoms.length ≤ room) (text : String) :
    p.tooDeep room text = false := by
  simp [tooDeep, Nat.not_lt.2 h]

/-! ## Segments and captures -/

/-- The text of a span; empty for an atom that tried none. -/
def segment (cs : List Char) : Option Span → String
  | some span => String.ofList (span.slice cs)
  | none => ""

/-- A text that fits a pattern: what its capture groups hold, what the last atom took if it takes
all that is left, and what each atom took. -/
structure Fit where
  groups : List String
  rest : Option String
  segments : List String
  deriving DecidableEq, Repr

/-- The captures in order, with what the last atom took at the end. -/
def Fit.captures (f : Fit) : List String := f.groups ++ f.rest.toList

/-- What was captured so far: what each group holds, and what the last atom took. -/
structure Captured where
  groups : List String
  rest : Option String
  deriving DecidableEq, Repr

/-- Nothing was captured for so many groups. -/
def Captured.blank (groupCount : Nat) : Captured := ⟨List.replicate groupCount "", none⟩

/-- What an atom took goes to its group, or is the rest. -/
def Captured.add (c : Captured) (a : Atom) (segment : String) : Captured :=
  match a.group with
  | some group => { c with groups := c.groups.modify group (· ++ segment) }
  | none => if a.piece = .rest then { c with rest := some segment } else c

/-- What is captured when the atoms took these segments. -/
def captured (p : Pattern) (segments : List String) : Captured :=
  (p.atoms.zip segments).foldl (fun c taken => c.add taken.1 taken.2) (.blank p.groupCount)

/-- The fit that belongs to the segments that the atoms took. -/
def fitOf (p : Pattern) (segments : List String) : Fit :=
  let c := p.captured segments
  ⟨c.groups, c.rest, segments⟩

/-- The search of a pattern for a text, from the start and with nothing tried. -/
def trace (p : Pattern) (text : String) : Bool × Journal :=
  searchFrom (p.atoms.map (·.piece)) (0, 0) text.toList (.blank p.atoms.length)

/-- Fits a text to a pattern. -/
def fit? (p : Pattern) (text : String) : Option Fit :=
  match p.trace text with
  | (true, j) => some (p.fitOf (j.spans.map (segment text.toList)))
  | (false, _) => none

/-- Whether a text fits a pattern. -/
def fits (p : Pattern) (text : String) : Bool := (p.fit? text).isSome

end Pattern

end CallRouting

import CallRouting.Pattern.Scan

/-!
# The pattern store

Patterns are kept once they were read, as many as the store has room for; when it is full, the
one that was not asked for the longest is given up. A text that is no pattern is never kept, so it
is read anew each time. The limits are asked only when a pattern is read: one that is kept is given
out whatever the limits are by then.
-/

namespace CallRouting

/-- The patterns that are kept, and how often one was found or had to be read. -/
structure PatternStore where
  capacity : Nat
  /-- The kept patterns, the one asked for last in front. -/
  entries : List Pattern
  hits : Nat
  misses : Nat
  deriving DecidableEq, Repr

namespace PatternStore

/-- A store without patterns. -/
def blank (capacity : Nat) : PatternStore := ⟨capacity, [], 0, 0⟩

/-- The kept pattern with a source. -/
def find? (store : PatternStore) (source : String) : Option Pattern :=
  store.entries.find? (·.source = source)

/-- Moves a kept pattern to the front. -/
def renew (store : PatternStore) (p : Pattern) : PatternStore :=
  { store with
    entries := p :: store.entries.filter (·.source ≠ p.source)
    hits := store.hits + 1 }

/-- Keeps a pattern that was just read. -/
def keep (store : PatternStore) (p : Pattern) : PatternStore :=
  { store with
    entries := (p :: store.entries).take store.capacity
    misses := store.misses + 1 }

/-- Asks for the pattern with a source; it is read if it is not kept. -/
def ask (limits : PatternLimits) (source : String) (store : PatternStore) :
    Except PatternError Pattern × PatternStore :=
  match store.find? source with
  | some p => (.ok p, store.renew p)
  | none =>
    match Pattern.parse limits source with
    | .error e => (.error e, { store with misses := store.misses + 1 })
    | .ok p => (.ok p, store.keep p)

/-- Every question is counted once. -/
theorem count_ask (limits : PatternLimits) (source : String) (store : PatternStore) :
    (store.ask limits source).2.hits + (store.ask limits source).2.misses =
      store.hits + store.misses + 1 := by
  unfold ask
  split
  · simp only [renew]; omega
  · split <;> simp only [keep] <;> omega

/-- The capacity stays. -/
theorem capacity_ask (limits : PatternLimits) (source : String) (store : PatternStore) :
    (store.ask limits source).2.capacity = store.capacity := by
  unfold ask
  split
  · rfl
  · split <;> rfl

end PatternStore

end CallRouting

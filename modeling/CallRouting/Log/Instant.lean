/-!
# Times of log records

A point in time as log records write it: date and time of day in UTC by the Gregorian calendar,
with microseconds unless there are none, and the offset of UTC.
-/

namespace CallRouting

/-- A point in time: whole seconds since the start of 1970, and microseconds after that. -/
structure Instant where
  seconds : Nat
  micros : Nat
  deriving DecidableEq, Repr

namespace Instant

/-- The count of days in an era of 400 years. -/
def eraDays : Nat := 146097

/-- Year, month and day of a day, counted from the start of 1970. Years are taken to begin in
March, so that the leap day comes last in them. -/
def date (day : Nat) : Nat × Nat × Nat :=
  let shifted := day + 719468
  let era := shifted / eraDays
  let dayOfEra := shifted % eraDays
  let yearOfEra :=
    (dayOfEra - dayOfEra / 1460 + dayOfEra / 36524 - dayOfEra / 146096) / 365
  let dayOfYear := dayOfEra - (365 * yearOfEra + yearOfEra / 4 - yearOfEra / 100)
  let marchMonth := (5 * dayOfYear + 2) / 153
  let day := dayOfYear - (153 * marchMonth + 2) / 5 + 1
  let month := if marchMonth < 10 then marchMonth + 3 else marchMonth - 9
  (yearOfEra + era * 400 + (if month ≤ 2 then 1 else 0), month, day)

/-- A number with at least so many digits. -/
def padded (width n : Nat) : String :=
  let digits := Nat.toDigits 10 n
  String.ofList (List.replicate (width - digits.length) '0' ++ digits)

/-- A point in time as it is written. -/
def text (t : Instant) : String :=
  let (year, month, day) := date (t.seconds / 86400)
  let second := t.seconds % 86400
  let fraction := if t.micros = 0 then "" else "." ++ padded 6 t.micros
  s!"{padded 4 year}-{padded 2 month}-{padded 2 day}T{padded 2 (second / 3600)}:" ++
    s!"{padded 2 (second / 60 % 60)}:{padded 2 (second % 60)}{fraction}+00:00"

/-- The first day. -/
example : date 0 = (1970, 1, 1) := by decide

/-- A leap day. -/
example : date 19782 = (2024, 2, 29) := by decide

/-- The day after it. -/
example : date 19783 = (2024, 3, 1) := by decide

end Instant

end CallRouting

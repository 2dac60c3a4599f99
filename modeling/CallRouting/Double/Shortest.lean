import CallRouting.Double.Basic

/-!
# The shortest text of a number

A number of double precision is written with the fewest decimal digits that read back as it. The
fractions that round to a number form an interval, from halfway to the number below to halfway to
the number above, with its ends if the mantissa is even. Of the decimal grids, from the coarsest
one on, the first one with a point in the interval is taken. If there is a point at all, then one
of the two next to the number is one; of two, the nearer is taken.

Numbers from a ten-thousandth to below 10^16 are written without an exponent and always with a
point.
-/

namespace CallRouting.Double

/-! ## Digits -/

/-- Half a step below the number, in quarters of its unit: the step is half as long below a power
of two. -/
def gapBelow (mantissa : Nat) (exponent : Int) : Nat :=
  if mantissa = leastNormal ∧ leastExponent < exponent then 1 else 2

/-- Whether a fraction rounds to a number that is not zero. -/
def roundsTo (mantissa : Nat) (exponent : Int) (f : Fraction) : Bool :=
  let low := Fraction.scaled 2 (4 * mantissa - gapBelow mantissa exponent) (exponent - 2)
  let high := Fraction.scaled 2 (4 * mantissa + 2) (exponent - 2)
  match low.cmp f, f.cmp high with
  | .lt, .lt => true
  | .eq, .lt | .lt, .eq => mantissa % 2 = 0
  | _, _ => false

/-- The point of a decimal grid that is written for a number, if one rounds to it. -/
def gridPoint (mantissa : Nat) (exponent power : Int) : Option (Nat × Int) :=
  let value := (Fraction.scaled 2 mantissa exponent).shift 10 power
  let below := value.num / value.den
  let fits (n : Nat) := roundsTo mantissa exponent (.scaled 10 n power)
  match fits below, fits (below + 1) with
  | true, true => some (value.round, power)
  | true, false => some (below, power)
  | false, true => some (below + 1, power)
  | false, false => none

/-- The greatest power of ten that a number can hold. -/
def greatestPower : Int := 309

/-- The count of decimal grids that are tried. -/
def gridCount : Nat := 700

/-- The shortest digits of a number that is not zero, as a whole number and a power of ten. -/
def shortest (mantissa : Nat) (exponent : Int) : Nat × Int :=
  ((List.range gridCount).findSome? fun (i : Nat) =>
    gridPoint mantissa exponent (greatestPower - i)).getD (0, 0)

/-- The digits that are chosen round to the number. -/
theorem roundsTo_of_gridPoint {mantissa n : Nat} {exponent power p : Int}
    (h : gridPoint mantissa exponent power = some (n, p)) :
    p = power ∧ roundsTo mantissa exponent (.scaled 10 n power) = true := by
  simp only [gridPoint] at h
  have near := roundDiv_eq_or ((Fraction.scaled 2 mantissa exponent).shift 10 power).num
    ((Fraction.scaled 2 mantissa exponent).shift 10 power).den
  split at h <;> simp only [Option.some.injEq, Prod.mk.injEq, reduceCtorEq] at h
  all_goals obtain ⟨rfl, rfl⟩ := h
  · refine ⟨rfl, ?_⟩
    rcases near with near | near <;> simp_all [Fraction.round]
  all_goals simp_all

/-! ## Layout -/

/-- Digits with a point after the first `point` of them, which may lie before or behind them
all. -/
def positional (digits : List Char) (point : Int) : List Char :=
  if point ≤ 0 then '0' :: '.' :: List.replicate (-point).toNat '0' ++ digits
  else if digits.length ≤ point then
    digits ++ List.replicate (point.toNat - digits.length) '0' ++ ['.', '0']
  else digits.take point.toNat ++ '.' :: digits.drop point.toNat

/-- An exponent with its sign and at least two digits. -/
def exponentChars (e : Int) : List Char :=
  let digits := Nat.toDigits 10 e.natAbs
  (if e < 0 then '-' else '+') :: List.replicate (2 - digits.length) '0' ++ digits

/-- Digits with a point after the first one, if there are more, and an exponent. -/
def scientific (digits : List Char) (e : Int) : List Char :=
  let tail := digits.drop 1
  digits.take 1 ++ (if tail.isEmpty then [] else '.' :: tail) ++ 'e' :: exponentChars e

/-- The text of a number that is not zero, without its sign. -/
def magnitude (mantissa : Nat) (exponent : Int) : List Char :=
  let (n, power) := shortest mantissa exponent
  let digits := Nat.toDigits 10 n
  let e := digits.length + power - 1
  if -4 ≤ e ∧ e < 16 then positional digits (e + 1) else scientific digits e

/-- The words for what is no finite number. -/
structure Words where
  infinity : String
  notANumber : String

/-- The text of a number. -/
def chars (words : Words) : Double → List Char
  | .finite negative mantissa exponent =>
    (if negative then ['-'] else []) ++
      if mantissa = 0 then ['0', '.', '0'] else magnitude mantissa exponent
  | .infinite negative => (if negative then ['-'] else []) ++ words.infinity.toList
  | .notANumber => words.notANumber.toList

/-- A whole number keeps its point. -/
example : magnitude leastNormal (-52) = "1.0".toList := by decide +kernel

/-- A tenth is written as such. -/
example : (ofDecimal false 1 (-1)).chars ⟨"", ""⟩ = "0.1".toList := by decide +kernel

/-- The least number of all. -/
example : magnitude 1 leastExponent = "5e-324".toList := by decide +kernel

end CallRouting.Double

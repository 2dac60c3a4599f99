/-!
# Numbers of double precision

A number that is written with a fraction or an exponent is worked with as the nearest number of
double precision: a sign, a mantissa of at most 53 bits and a power of two. All of it is exact
arithmetic on whole numbers. A number that lies halfway between two goes to the one with the even
mantissa, and one that is too great for all of them becomes infinite.
-/

namespace CallRouting

/-! ## Rounding -/

/-- A quotient rounded to the nearest whole number; a half goes to the even one. -/
def roundDiv (num den : Nat) : Nat :=
  let low := num / den
  let rest := num % den
  if 2 * rest < den then low
  else if den < 2 * rest then low + 1
  else if low % 2 = 0 then low else low + 1

/-- A whole number is the quotient's own rounding. -/
theorem roundDiv_mul (n den : Nat) (h : 0 < den) : roundDiv (n * den) den = n := by
  simp [roundDiv, h]

/-- A quotient is rounded to one of its two neighbours. -/
theorem roundDiv_eq_or (num den : Nat) :
    roundDiv num den = num / den ∨ roundDiv num den = num / den + 1 := by
  unfold roundDiv
  dsimp only
  repeat' split
  all_goals simp

/-- A positive fraction. -/
structure Fraction where
  num : Nat
  den : Nat
  deriving DecidableEq, Repr

namespace Fraction

/-- A whole number times a power of a base. -/
def scaled (base n : Nat) (exponent : Int) : Fraction :=
  ⟨n * base.pow exponent.toNat, base.pow (-exponent).toNat⟩

/-- A fraction divided by a power of a base. -/
def shift (f : Fraction) (base : Nat) (exponent : Int) : Fraction :=
  ⟨f.num * base.pow (-exponent).toNat, f.den * base.pow exponent.toNat⟩

/-- A fraction rounded to a whole number. -/
def round (f : Fraction) : Nat := roundDiv f.num f.den

/-- How two fractions compare. -/
def cmp (f g : Fraction) : Ordering := compare (f.num * g.den) (g.num * f.den)

end Fraction

/-! ## Numbers -/

/-- A number of double precision. -/
inductive Double where
  /-- The number `mantissa * 2 ^ exponent` with a sign. -/
  | finite (negative : Bool) (mantissa : Nat) (exponent : Int)
  | infinite (negative : Bool)
  | notANumber
  deriving DecidableEq, Repr

namespace Double

/-- Whether a number is neither infinite nor no number at all. -/
def isFinite : Double → Bool
  | .finite .. => true
  | .infinite _ | .notANumber => false

/-- The least power of two. -/
def leastExponent : Int := -1074

/-- The greatest power of two. -/
def greatestExponent : Int := 971

/-- The least mantissa of 53 bits. Every number but those next to zero is kept with a mantissa of
so many bits. -/
def leastNormal : Nat := 0x10000000000000

/-- The greatest power of two that a fraction is not below. -/
def binaryOrder (f : Fraction) : Int :=
  let guess : Int := Nat.log2 f.num - Nat.log2 f.den
  if (f.shift 2 guess).num < (f.shift 2 guess).den then guess - 1 else guess

/-- The number nearest to a fraction. -/
def nearest (negative : Bool) (f : Fraction) : Double :=
  if f.num = 0 then .finite negative 0 leastExponent
  else
    let exponent := max (binaryOrder f - 52) leastExponent
    let mantissa := (f.shift 2 exponent).round
    let (mantissa, exponent) :=
      if mantissa = 2 * leastNormal then (leastNormal, exponent + 1) else (mantissa, exponent)
    if greatestExponent < exponent then .infinite negative
    else .finite negative mantissa exponent

/-- The count of decimal digits. -/
def size (n : Nat) : Nat := (Nat.toDigits 10 n).length

/-- The number nearest to `mantissa * 10 ^ exponent`. Powers of ten far beyond the greatest and the
least number are told from the count of digits. -/
def ofDecimal (negative : Bool) (mantissa : Nat) (exponent : Int) : Double :=
  if mantissa = 0 || size mantissa + exponent < -400 then .finite negative 0 leastExponent
  else if 400 < size mantissa + exponent then .infinite negative
  else nearest negative (.scaled 10 mantissa exponent)

/-- The number nearest to a whole number. -/
def ofInt (n : Int) : Double := ofDecimal (n < 0) n.natAbs 0

/-- The whole part of a number: what stands behind the point is dropped. -/
def truncate? : Double → Option Int
  | .finite negative mantissa exponent =>
    let f := Fraction.scaled 2 mantissa exponent
    let n : Int := (f.num / f.den : Nat)
    some (if negative then -n else n)
  | .infinite _ | .notANumber => none

/-- The whole number that a number equals, if there is one. -/
def integer? (x : Double) : Option Int :=
  match x with
  | .finite _ mantissa exponent =>
    let f := Fraction.scaled 2 mantissa exponent
    if f.num % f.den = 0 then x.truncate? else none
  | .infinite _ | .notANumber => none

/-- A half is exact. -/
example : ofDecimal false 5 (-1) = .finite false leastNormal (-53) := by decide +kernel

/-- Halfway between two numbers the even mantissa is taken. -/
example : ofInt 9007199254740993 = .finite false leastNormal 1 := by decide +kernel

/-- Beyond the greatest number nothing finite is near. -/
example : ofDecimal true 1 309 = .infinite true := by decide +kernel

end Double

end CallRouting

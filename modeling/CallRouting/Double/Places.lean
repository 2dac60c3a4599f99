import CallRouting.Double.Shortest

/-!
# Numbers with a count of places

A number of double precision is written with a given count of digits: so many behind the point, or
so many in all. The number is rounded as it is, a half to the even neighbour.
-/

namespace CallRouting.Double

/-- How a number is written with a count of digits. -/
inductive PlaceStyle where
  /-- So many digits behind the point. -/
  | fixed
  /-- One digit before the point, so many behind it, and an exponent. -/
  | exponent
  /-- So many digits in all, with or without an exponent, whichever is shorter. -/
  | general
  deriving DecidableEq, Repr

/-- Digits, padded with zeros in front to a width. -/
def paddedDigits (width n : Nat) : List Char :=
  let digits := Nat.toDigits 10 n
  List.replicate (width - digits.length) '0' ++ digits

/-- A number with so many digits behind the point; `point` says that there is a point even if no
digit follows it. -/
def fixedChars (point : Bool) (places : Nat) (f : Fraction) : List Char :=
  let digits := paddedDigits (places + 1) (f.shift 10 (-places)).round
  let whole := digits.length - places
  digits.take whole ++ (if places = 0 && !point then [] else ['.']) ++ digits.drop whole

/-- The greatest power of ten that a positive fraction is not below. -/
def decimalOrder (f : Fraction) : Int :=
  ((List.range gridCount).map fun (i : Nat) => greatestPower - i).find?
    (fun power => (Fraction.scaled 10 1 power).cmp f ≠ .gt) |>.getD 0

/-- The digits of a fraction, so many behind the first one, and the power of ten of the first. -/
def leadingDigits (places : Nat) (f : Fraction) : List Char × Int :=
  if f.num = 0 then (List.replicate (places + 1) '0', 0)
  else
    let order := decimalOrder f
    let n := (f.shift 10 (order - places)).round
    if n = Nat.pow 10 (places + 1) then (Nat.toDigits 10 (Nat.pow 10 places), order + 1)
    else (Nat.toDigits 10 n, order)

/-- A number with one digit before the point, so many behind it, and an exponent. -/
def exponentialChars (point : Bool) (places : Nat) (f : Fraction) : List Char :=
  let (digits, order) := leadingDigits places f
  digits.take 1 ++ (if places = 0 && !point then [] else ['.']) ++ digits.drop 1 ++
    'e' :: exponentChars order

/-- Drops the zeros at the end of digits behind a point, and the point if nothing is left. -/
def dropZeros (cs : List Char) : List Char :=
  if cs.contains '.' then
    let kept := cs.reverse.dropWhile (· = '0')
    (if kept.head? = some '.' then kept.drop 1 else kept).reverse
  else cs

/-- A number with so many digits in all. An exponent is written below a ten-thousandth and where
not all digits before the point are known; zeros at the end are dropped unless `point` asks for
them. -/
def generalChars (point : Bool) (count : Nat) (f : Fraction) : List Char :=
  let places := max count 1 - 1
  let (digits, order) := leadingDigits places f
  let trim (cs : List Char) := if point then cs else dropZeros cs
  if -4 ≤ order ∧ order < places + 1 then trim (fixedChars point (places - order).toNat f)
  else
    trim (digits.take 1 ++ (if places = 0 && !point then [] else ['.']) ++ digits.drop 1) ++
      'e' :: exponentChars order

/-- A number in a style, without its sign. -/
def styled (style : PlaceStyle) (point : Bool) (places : Nat) : Double → List Char
  | .finite _ mantissa exponent =>
    let f := Fraction.scaled 2 mantissa exponent
    match style with
    | .fixed => fixedChars point places f
    | .exponent => exponentialChars point places f
    | .general => generalChars point places f
  | .infinite _ => "inf".toList
  | .notANumber => "nan".toList

/-- Whether a number has a minus sign. -/
def isNegative : Double → Bool
  | .finite negative .. | .infinite negative => negative
  | .notANumber => false

/-- A half goes to the even neighbour. -/
example : fixedChars false 0 ⟨5, 2⟩ = ['2'] := by decide

/-- Rounding may add a digit. -/
example : fixedChars false 1 ⟨999, 100⟩ = "10.0".toList := by decide

end CallRouting.Double

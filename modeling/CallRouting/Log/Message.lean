import CallRouting.Double.Places
import CallRouting.Json.Literal
import CallRouting.Text.Integer

/-!
# Messages with placeholders

A log message may hold placeholders that are filled from a list of arguments, in order. A
placeholder is a percent sign, flags, a width, a precision and a letter: `s` shows a value as it is
and `r` in quotes, `a` as `r` in ASCII, `d`, `i` and `u` write a whole number, `x`, `X` and `o` in
base sixteen and eight, `f`, `e` and `g` and their capitals a number of double precision, and `c`
writes one character. Two percent signs stand for one. A name in parentheses picks a field if
there is one argument and it is an object. A message without arguments is taken as it is.
-/

namespace CallRouting.Log

/-! ## Faults -/

/-- Why a message cannot be filled. -/
inductive FillError where
  | tooFewArguments
  | tooManyArguments
  | incomplete
  | unsupported (letter : Char) (index : Nat)
  | notNumber
  | notInteger
  | tooLargeForReal
  | infiniteInteger
  | undefinedInteger
  | notCharacter
  | noCharacter
  | starNotInteger
  | starTooLarge
  | countTooLarge (count : String)
  | notMapping
  | incompleteName
  | noField (name : String)
  deriving DecidableEq, Repr

/-- The sentence that reports the fault. -/
def FillError.message : FillError → String
  | .tooFewArguments => "not enough arguments for format string"
  | .tooManyArguments => "not all arguments converted during string formatting"
  | .incomplete => "incomplete format"
  | .unsupported c index =>
    let digits := (Nat.toDigits 16 c.toNat)
    let shown := if 0x1F < c.toNat && c.toNat < 0x7F then c else '?'
    s!"unsupported format character '{shown}' (0x{String.ofList digits}) at index {index}"
  | .notNumber => "a number is required"
  | .notInteger => "an integer is required"
  | .tooLargeForReal => "integer too large to convert to float"
  | .infiniteInteger => "cannot convert float infinity to integer"
  | .undefinedInteger => "cannot convert float NaN to integer"
  | .notCharacter => "a character is required"
  | .noCharacter => "no character has that number"
  | .starNotInteger => "* requires an integer"
  | .starTooLarge => "integer too large for *"
  | .countTooLarge count => s!"{count} too big"
  | .notMapping => "format requires a mapping"
  | .incompleteName => "incomplete format key"
  | .noField name => s!"no field {Text.quoted name}"

/-! ## Placeholders -/

/-- The flags of a placeholder. -/
structure Flags where
  left : Bool := false
  plus : Bool := false
  blank : Bool := false
  alternate : Bool := false
  zero : Bool := false
  deriving DecidableEq, Repr

/-- Reads flags off the front. -/
def takeFlags : Flags → List Char → Flags × List Char
  | f, '-' :: rest => takeFlags { f with left := true } rest
  | f, '+' :: rest => takeFlags { f with plus := true } rest
  | f, ' ' :: rest => takeFlags { f with blank := true } rest
  | f, '#' :: rest => takeFlags { f with alternate := true } rest
  | f, '0' :: rest => takeFlags { f with zero := true } rest
  | f, rest => (f, rest)

/-- The arguments: those not used yet, and the object whose fields can be named. -/
structure Arguments where
  left : List Json
  mapping : Option Json
  deriving Repr

/-- Takes the next argument. -/
def Arguments.next (a : Arguments) : Except FillError (Json × Arguments) :=
  match a.left with
  | [] => .error .tooFewArguments
  | v :: rest => .ok (v, { a with left := rest })

/-- A count in a placeholder: its name, and the number that it has to lie below. -/
structure CountSpec where
  name : String
  limit : Int

/-- Widths. -/
def widthSpec : CountSpec := ⟨"width", 0x8000000000000000⟩

/-- Precisions. -/
def precisionSpec : CountSpec := ⟨"precision", 0x80000000⟩

/-- Reads a count off the front: digits, or a star that takes it from the arguments. -/
def takeCount (spec : CountSpec) (a : Arguments) :
    List Char → Except FillError (Option Int × Arguments × List Char)
  | '*' :: rest => do
    let (v, a) ← a.next
    match v with
    | .int n =>
      if -spec.limit ≤ n ∧ n < spec.limit then return (some n, a, rest)
      else throw .starTooLarge
    | .bool b => return (some (if b then 1 else 0), a, rest)
    | _ => throw .starNotInteger
  | cs =>
    let digits := cs.takeWhile Char.isDigit
    let n : Int := Text.ofDigits (digits.map fun c => c.toNat - 0x30)
    if digits.isEmpty then .ok (none, a, cs)
    else if spec.limit ≤ n then .error (.countTooLarge spec.name)
    else .ok (some n, a, cs.dropWhile Char.isDigit)

/-- Pads a text with blanks to a width. -/
def pad (left : Bool) (width : Nat) (text : List Char) : List Char :=
  let blanks := List.replicate (width - text.length) ' '
  if left then text ++ blanks else blanks ++ text

/-- Puts the sign and a mark in front of digits and fills up to the width. -/
def signed (f : Flags) (width : Nat) (negative : Bool) (mark digits : List Char) : List Char :=
  let sign := if negative then ['-'] else if f.plus then ['+'] else if f.blank then [' '] else []
  let zeros :=
    if f.zero && !f.left then
      List.replicate (width - (sign.length + mark.length + digits.length)) '0'
    else []
  pad f.left width (sign ++ mark ++ zeros ++ digits)

/-- Writes a whole number in a base. -/
def numberChars (f : Flags) (width : Nat) (precision : Option Nat) (letter : Char) (n : Int) :
    List Char :=
  let base := if letter = 'x' || letter = 'X' then 16 else if letter = 'o' then 8 else 10
  let digits := Nat.toDigits base n.natAbs
  let digits := List.replicate (precision.getD 0 - digits.length) '0' ++ digits
  let digits := if letter = 'X' then digits.map Char.toUpper else digits
  signed f width (n < 0) (if f.alternate && base ≠ 10 then ['0', letter] else []) digits

/-- The style of a number of double precision. -/
def styleOf (letter : Char) : Double.PlaceStyle :=
  if letter.toLower = 'f' then .fixed else if letter.toLower = 'e' then .exponent else .general

/-- Writes a number of double precision; without a precision six digits are written. -/
def realChars (f : Flags) (width : Nat) (precision : Option Nat) (letter : Char) (x : Double) :
    List Char :=
  let digits := x.styled (styleOf letter) f.alternate (precision.getD 6)
  signed f width x.isNegative [] (if letter.isUpper then digits.map Char.toUpper else digits)

/-- The number of double precision that a value stands for. -/
def realOf : Json → Except FillError Double
  | .real x => .ok x
  | .bool b => .ok (.ofInt (if b then 1 else 0))
  | .int n => if (Double.ofInt n).isFinite then .ok (.ofInt n) else .error .tooLargeForReal
  | .null | .str _ | .arr _ | .obj _ => .error .notNumber

/-- The whole number that a value stands for; what stands behind a point is dropped if `letter`
asks for a decimal number. -/
def integerOf (letter : Char) : Json → Except FillError Int
  | .int n => .ok n
  | .bool b => .ok (if b then 1 else 0)
  | .real x =>
    if letter ∉ ['d', 'i', 'u'] then .error .notInteger
    else
      match x.truncate? with
      | some n => .ok n
      | none => .error (if x = .notANumber then .undefinedInteger else .infiniteInteger)
  | .null | .str _ | .arr _ | .obj _ => .error .notNumber

/-- A text with every character past ASCII escaped. -/
def asciiOnly (text : String) : List Char :=
  text.toList.flatMap fun c => if c.toNat < 0x80 then [c] else Text.codeEscape c

/-- Writes a value as a placeholder asks for it; `index` is the place of its letter. -/
def fillOne (f : Flags) (width : Nat) (precision : Option Nat) (letter : Char) (index : Nat)
    (value : Json) : Except FillError (List Char) :=
  let text (cs : List Char) :=
    pad f.left width (match precision with | none => cs | some n => cs.take n)
  if letter = 's' then .ok (text value.shown.toList)
  else if letter = 'r' then .ok (text value.literal.toList)
  else if letter = 'a' then .ok (text (asciiOnly value.literal))
  else if letter ∈ ['d', 'i', 'u', 'x', 'X', 'o'] then
    numberChars f width precision letter <$> integerOf letter value
  else if letter ∈ ['f', 'F', 'e', 'E', 'g', 'G'] then
    realChars f width precision letter <$> realOf value
  else if letter = 'c' then
    match value with
    | .int n =>
      if 0 ≤ n ∧ n < 0x110000 then .ok (pad f.left width [Char.ofNat n.toNat])
      else .error .noCharacter
    | .bool b => .ok (pad f.left width [Char.ofNat (if b then 1 else 0)])
    | .str s =>
      match s.toList with
      | [c] => .ok (pad f.left width [c])
      | _ => .error .notCharacter
    | _ => .error .notCharacter
  else .error (.unsupported letter index)

/-- Reads the name of a field up to the parenthesis that closes it. -/
def takeName : (depth : Nat) → List Char → Option (List Char × List Char)
  | _, [] => none
  | depth, c :: rest =>
    if c = ')' then
      match depth with
      | 0 => some ([], rest)
      | depth + 1 => (takeName depth rest).map fun (name, rest) => (c :: name, rest)
    else
      (takeName (if c = '(' then depth + 1 else depth) rest).map
        fun (name, rest) => (c :: name, rest)

/-- The argument that a field name in parentheses picks, if there is one. -/
def takeNamed (a : Arguments) : List Char → Except FillError (Arguments × List Char)
  | '(' :: rest =>
    match a.mapping with
    | none => .error .notMapping
    | some mapping =>
      match takeName 0 rest with
      | none => .error .incompleteName
      | some (name, rest) =>
        let name := String.ofList name
        match mapping.field? name with
        | none => .error (.noField name)
        | some v => .ok ({ a with left := [v] }, rest)
  | rest => .ok (a, rest)

/-- Reads the precision of a placeholder, if it has one. -/
def takePrecision (a : Arguments) :
    List Char → Except FillError (Option Nat × Arguments × List Char)
  | '.' :: rest => do
    let (n, a, rest) ← takeCount precisionSpec a rest
    return (some (n.getD 0).toNat, a, rest)
  | cs => .ok (none, a, cs)

/-- Drops a letter that tells the size of a number elsewhere and means nothing here. -/
def dropSize : List Char → List Char
  | c :: rest => if c = 'h' || c = 'l' || c = 'L' then rest else c :: rest
  | [] => []

/-- Reads a placeholder after its percent sign and fills it; `total` is the length of the whole
message. -/
def fillNext (total : Nat) (a : Arguments) (cs : List Char) :
    Except FillError (List Char × Arguments × List Char) := do
  let (a, cs) ← takeNamed a cs
  let (f, cs) := takeFlags {} cs
  let (width, a, cs) ← takeCount widthSpec a cs
  let f := if width.any (· < 0) then { f with left := true } else f
  let (precision, a, cs) ← takePrecision a cs
  let cs := dropSize cs
  match cs with
  | [] => throw .incomplete
  | letter :: rest =>
    let (value, a) ← a.next
    let text ← fillOne f ((width.map Int.natAbs).getD 0) precision letter (total - cs.length) value
    return (text, a, rest)

/-- Fills the placeholders of a message; the first argument bounds their count. -/
def fillAll (total : Nat) : Nat → Arguments → List Char → Except FillError (List Char)
  | 0, _, cs => .ok cs
  | fuel + 1, a, cs =>
    let text := cs.takeWhile (· ≠ '%')
    match cs.dropWhile (· ≠ '%') with
    | [] =>
      if a.mapping.isNone && !a.left.isEmpty then .error .tooManyArguments else .ok text
    | _ :: '%' :: rest => return text ++ '%' :: (← fillAll total fuel a rest)
    | _ :: rest => do
      let (filled, a, rest) ← fillNext total a rest
      return text ++ filled ++ (← fillAll total fuel a rest)

/-- Fills the placeholders of a message from arguments. -/
def fill (message : String) (arguments : List Json) : Except FillError String :=
  let cs := message.toList
  match arguments with
  | [] => .ok message
  | [.obj (field :: fields)] =>
    let mapping := Json.obj (field :: fields)
    String.ofList <$> fillAll cs.length (cs.length + 1) ⟨[mapping], some mapping⟩ cs
  | values => String.ofList <$> fillAll cs.length (cs.length + 1) ⟨values, none⟩ cs

end CallRouting.Log

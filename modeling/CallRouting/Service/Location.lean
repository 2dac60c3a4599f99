import CallRouting.Text.Percent

/-!
# Where a request goes

An address may be written in full, with a scheme and an authority, or in part. What leads to a
target is its path: without what follows a question mark or a number sign, with steps to the place
itself and to the place above taken, and with its escapes read, twice over, for they are read once
where the request is sent and once where it arrives. A path in part starts at the root.
-/

namespace CallRouting.Location

/-- The most characters of an address. -/
def maxLength : Nat := 65536

/-- A control character of ASCII. -/
def isControl (c : Char) : Bool := c.toNat < 0x20 || c.toNat = 0x7F

/-- A character of a scheme. -/
def isSchemeChar (c : Char) : Bool := c.isAlphanum || c = '+' || c = '-' || c = '.'

/-- Splits a scheme and the colon after it off; an address may start with the colon alone. -/
def takeScheme (cs : List Char) : List Char × List Char :=
  let name := cs.takeWhile isSchemeChar
  match cs.drop name.length with
  | ':' :: rest => if name.head?.all Char.isAlpha then (name, rest) else ([], cs)
  | _ => ([], cs)

/-- Splits an authority off, with the two slashes in front of it. -/
def takeAuthority : List Char → List Char × List Char
  | '/' :: '/' :: rest => (rest.takeWhile (· ≠ '/'), rest.dropWhile (· ≠ '/'))
  | cs => ([], cs)

/-- The names between the slashes of a path. -/
def names : List Char → List (List Char)
  | [] => [[]]
  | '/' :: rest => [] :: names rest
  | c :: rest =>
    match names rest with
    | [] => [[c]]
    | name :: more => (c :: name) :: more

/-- There is always a name, be it the empty one. -/
theorem names_ne_nil (cs : List Char) : names cs ≠ [] := by
  fun_induction names cs <;> simp

/-- Joining the names of a path gives the path. -/
theorem intercalate_names (cs : List Char) : ['/'].intercalate (names cs) = cs := by
  fun_induction names cs with
  | case1 => rfl
  | case2 rest ih =>
    obtain ⟨name, more, h⟩ := List.exists_cons_of_ne_nil (names_ne_nil rest)
    rw [h] at ih ⊢
    simp [List.intercalate_cons_cons, ih]
  | case3 c rest _ h => exact absurd h (names_ne_nil rest)
  | case4 c rest _ name more h ih =>
    rw [h] at ih
    cases more with
    | nil => simpa using ih
    | cons next more => simpa [List.intercalate_cons_cons] using ih

/-- Takes a step of a path; `taken` holds the names before it, last one first. The empty name in
front of the root stays. -/
def step (taken : List (List Char)) (name : List Char) : List (List Char) :=
  if name = ['.'] then taken
  else if name = ['.', '.'] then (if taken = [[]] then taken else taken.drop 1)
  else name :: taken

/-- Takes the steps to the place itself and to the place above. -/
def resolve (path : List Char) : List Char :=
  ['/'].intercalate ((names path).foldl step []).reverse

/-- A path with no slash at its end. -/
def withoutLastSlashes (cs : List Char) : List Char := (cs.reverse.dropWhile (· = '/')).reverse

/-- The path that an address leads to, without slashes at its end; none if it is no address. -/
def path? (address : String) : Option String :=
  let cs := address.toList
  if maxLength < cs.length || cs.any isControl then none
  else
    let (scheme, rest) := takeScheme (cs.takeWhile fun c => c ≠ '?' && c ≠ '#')
    let (authority, path) := takeAuthority rest
    if authority.isEmpty && ['/', '/'].isPrefixOf path then none
    else if scheme.isEmpty && authority.isEmpty && path.head? = some ':' then none
    else
      let path :=
        if scheme.isEmpty || authority.isEmpty then '/' :: path.dropWhile (· = '/') else path
      let read := Text.percentDecode (Text.percentDecode (resolve path))
      some (String.ofList (withoutLastSlashes read))

/-- A slash at the end and a query make no difference. -/
example : path? "/match/?a=1" = some "/match" := by decide +kernel

/-- An escape may be escaped. -/
example : path? "http://host/x/../match%252F" = some "/match" := by decide +kernel

end CallRouting.Location

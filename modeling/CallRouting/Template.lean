import CallRouting.Text.Quoted

/-!
# Templates

A template says how a number is written anew. Each run of `$` is replaced by the next capture
group of the number, `Z` by what the pattern's last atom took if it takes all that is left, and
everything else stays. Under the strict rule a run has to be as long as the group it is replaced
by. What is put in is never read as template again.
-/

namespace CallRouting

/-! ## Parts -/

/-- A part of a template: a run of `$`, the mark for what is left, or a character of its own. -/
inductive TemplatePart where
  | run (length : Nat)
  | restMark
  | plain (c : Char)
  deriving DecidableEq, Repr

/-- Puts one more `$` in front. -/
def TemplatePart.lengthen : List TemplatePart → List TemplatePart
  | .run n :: parts => .run (n + 1) :: parts
  | parts => .run 1 :: parts

/-- The parts of a template. -/
def templateParts : List Char → List TemplatePart
  | [] => []
  | c :: rest =>
    if c = '$' then TemplatePart.lengthen (templateParts rest)
    else if c = 'Z' then .restMark :: templateParts rest
    else .plain c :: templateParts rest

/-- The length of a run. -/
def TemplatePart.runLength? : TemplatePart → Option Nat
  | .run n => some n
  | .restMark | .plain _ => none

/-- The lengths of the runs of a template. -/
def placeholderRuns (template : String) : List Nat :=
  (templateParts template.toList).filterMap TemplatePart.runLength?

/-- No run is empty. -/
theorem pos_of_run_mem (cs : List Char) {n : Nat} (h : .run n ∈ templateParts cs) : 0 < n := by
  induction cs generalizing n with
  | nil => simp [templateParts] at h
  | cons c rest ih =>
    unfold templateParts at h
    split at h
    · unfold TemplatePart.lengthen at h
      split at h
      · rename_i heq
        rcases List.mem_cons.1 h with h | h
        · cases h
          omega
        · exact ih (heq ▸ List.mem_cons_of_mem _ h)
      · rcases List.mem_cons.1 h with h | h
        · cases h
          decide
        · exact ih h
    · split at h <;>
        · rcases List.mem_cons.1 h with h | h
          · cases h
          · exact ih h

/-! ## Rendering -/

/-- Why a template does not go with the captures. -/
inductive TemplateError where
  /-- There are more runs than groups. -/
  | exhausted (groupCount : Int)
  /-- The run with this index differs in length from its group. -/
  | length (index expected : Int) (group : String)
  deriving DecidableEq, Repr

/-- The sentence that reports the fault. -/
def TemplateError.message : TemplateError → String
  | .exhausted groupCount =>
    s!"Template references more than the {groupCount} capture group(s) produced by the pattern"
  | .length index expected group =>
    s!"Placeholder run {index + 1} expects {expected} characters, " ++
      s!"capture group has {group.length} ({Text.quoted group})"

/-- What is put in for the parts of a template: the groups that are left, and the text for the
mark, if the mark is one. -/
structure Filling where
  strict : Bool
  groupCount : Nat
  rest : Option String

/-- Writes parts out; `index` is the index of the first of the groups that are left. -/
def Filling.write (f : Filling) : (index : Nat) → (groups : List String) → List TemplatePart →
    Except TemplateError (List Char)
  | _, _, [] => .ok []
  | _, [], .run _ :: _ => .error (.exhausted f.groupCount)
  | index, group :: groups, .run n :: parts =>
    if f.strict && group.length ≠ n then .error (.length index n group)
    else (group.toList ++ ·) <$> f.write (index + 1) groups parts
  | index, groups, .restMark :: parts =>
    (((f.rest.map String.toList).getD ['Z']) ++ ·) <$> f.write index groups parts
  | index, groups, .plain c :: parts => (c :: ·) <$> f.write index groups parts

/-- Renders a template with the captures of a number. The flag `hasRest` says whether `Z` is a
mark; without it, it is one if there is something that the last atom took. -/
def render (strict : Bool) (groups : List String) (rest : Option String) (hasRest : Option Bool)
    (template : String) : Except TemplateError String :=
  let marked := hasRest.getD rest.isSome
  let filling : Filling :=
    { strict, groupCount := groups.length, rest := if marked then some (rest.getD "") else none }
  String.ofList <$> filling.write 0 groups (templateParts template.toList)

end CallRouting

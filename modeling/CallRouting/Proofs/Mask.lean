import CallRouting.Proofs.Numbering
import CallRouting.Proofs.Shape
import Mathlib.Data.List.Chain

/-!
# Masks

A mask is a pattern that says where the digits of a number stand and what stands between them: digit
classes and characters of their own, without quantifiers, and at the end perhaps whatever is left.
Its *mirror* is the template that writes a number the way the mask reads it.

* **Fields** (`Field`, `Fielded`): the atoms of a mask fall into fields, one for the digit classes of
  each group, for each other character and for what is left (`IsMask.exists_fielded`). What is
  written into the fields is a text (`fill`).
* **Reading** (`Fielded.captured`): a text that is cut among the atoms is what its captures fill the
  fields with, and the captures are spelled by the classes of the groups (`Spells`).
* **Writing** (`Fielded.write_mirror`): the mirror, rendered with captures that are spelled by the
  classes, fills the fields with them.
* **Back** (`Fielded.cuttable_fill`, `Fielded.fill_injective`): whatever the fields are filled with
  can be cut among the atoms, and only the same captures fill them with the same text.
-/

namespace CallRouting

/-! ## Masks and mirrors -/

/-- Whether a mask may be made of a piece: a digit class or a character other than `$`, without a
quantifier, or what is left. -/
def Piece.inMask : Piece → Bool
  | .single cls none =>
    match cls with
    | .literal c => c ≠ '$'
    | .wildcard => false
    | .restricted | .anyDigit | .nextDigit | .nonZero => true
  | .rest => true
  | .single _ (some _) | .choice _ => false

namespace Pattern

/-- Whether a pattern is a mask: it is made of such pieces only, and where two groups stand side by
side they are one. -/
structure IsMask (p : Pattern) : Prop where
  plain : ∀ a ∈ p.atoms, a.piece.inMask = true
  apart : p.atoms.IsChain fun a b => a.group = none ∨ b.group = none ∨ a.group = b.group

instance : DecidablePred IsMask := fun p =>
  decidable_of_iff ((∀ a ∈ p.atoms, a.piece.inMask = true) ∧
      p.atoms.IsChain fun a b => a.group = none ∨ b.group = none ∨ a.group = b.group)
    ⟨fun h => ⟨h.1, h.2⟩, fun h => ⟨h.plain, h.apart⟩⟩

/-- An atom in the mirror: `$` if it belongs to a group, else as it is written in the pattern. -/
def mirrorToken (a : Atom) : Char := if a.group.isSome then '$' else a.piece.token

/-- The template that writes a number the way a mask reads it. -/
def mirror (p : Pattern) : String := String.ofList (p.atoms.map mirrorToken)

/-- The letters of the classes in each group. -/
def groupLetters (p : Pattern) : List (List Char) :=
  (List.range p.groupCount).map fun group => (p.members group).map (·.piece.token)

/-! ## Fields -/

/-- A field of a mask: the digit classes of a group, a character of its own, or what is left. -/
inductive Field where
  | digits (classes : List CharClass)
  | own (c : Char)
  | rest
  deriving DecidableEq, Repr

/-- The part of a template that writes a field. -/
def Field.part : Field → TemplatePart
  | digits classes => .run classes.length
  | own c => .plain c
  | rest => .restMark

/-- The classes of a field of digits. -/
def Field.classes? : Field → Option (List CharClass)
  | digits classes => some classes
  | own _ | rest => none

/-- The classes of the groups. -/
def classesOf (fields : List Field) : List (List CharClass) := fields.filterMap Field.classes?

@[simp] theorem classesOf_own (c : Char) (fields : List Field) :
    classesOf (.own c :: fields) = classesOf fields := rfl

@[simp] theorem classesOf_digits (classes : List CharClass) (fields : List Field) :
    classesOf (.digits classes :: fields) = classes :: classesOf fields := rfl

/-- What is written into fields: the captures one after the other, and the text for what is left. -/
def fill : List Field → List String → Option String → List Char
  | [], _, _ => []
  | .digits _ :: fields, groups, rest =>
    (groups.head?.getD "").toList ++ fill fields groups.tail rest
  | .own c :: fields, groups, rest => c :: fill fields groups rest
  | .rest :: fields, groups, rest => (rest.getD "").toList ++ fill fields groups rest

@[simp] theorem fill_digits (classes : List CharClass) (fields : List Field) (group : String)
    (groups : List String) (rest : Option String) :
    fill (.digits classes :: fields) (group :: groups) rest =
      group.toList ++ fill fields groups rest := rfl

/-- Whether a capture has a character of each of the classes, in order. -/
def Spells (classes : List CharClass) (group : String) : Prop :=
  List.Forall₂ CharClass.Holds classes group.toList

/-- Atoms that fall into fields, where the first group has the given number. -/
inductive Fielded : Nat → List Atom → List Field → Prop
  | nil (n : Nat) : Fielded n [] []
  | own {n : Nat} {a : Atom} {c : Char} {atoms : List Atom} {fields : List Field}
      (hgroup : a.group = none) (hpiece : a.piece = .single (.literal c) none) (hdollar : c ≠ '$')
      (hz : c ≠ 'Z') (h : Fielded n atoms fields) : Fielded n (a :: atoms) (.own c :: fields)
  | rest {n : Nat} {a : Atom} (hgroup : a.group = none) (hpiece : a.piece = .rest) :
      Fielded n [a] [.rest]
  | digits {n : Nat} {members atoms : List Atom} {classes : List CharClass} {fields : List Field}
      (hne : members ≠ []) (hgroup : ∀ a ∈ members, a.group = some n)
      (hpieces : List.Forall₂ (fun a cls => a.piece = .single cls none) members classes)
      (hclasses : ∀ cls ∈ classes, cls.isDigitClass = true)
      (hnext : ∀ a ∈ atoms.head?, a.group = none) (h : Fielded (n + 1) atoms fields) :
      Fielded n (members ++ atoms) (.digits classes :: fields)

/-! ## A mask falls into fields -/

/-- A class that is a character of its own is read from that character. -/
theorem ofToken_of_mem_layout {n : Nat} {us : List Phrase} {a : Atom} {c : Char}
    {q : Option Quantifier} (h : a ∈ layout n us) (hpiece : a.piece = .single (.literal c) q) :
    CharClass.ofToken c = .literal c := by
  induction us generalizing n with
  | nil => cases h
  | cons u us ih =>
    rcases List.mem_cons.mp h with rfl | h
    · cases u with
      | group alternatives => cases hpiece
      | plain d q' =>
        have hcls : CharClass.ofToken d = .literal c := (Piece.single.inj hpiece).1
        have htoken := CharClass.token_ofToken d
        rw [hcls] at htoken
        rwa [show d = c from htoken.symm] at hcls
    · exact ih h

variable {limits : PatternLimits} {source text : String} {p : Pattern}

/-- In a pattern that was read, `Z` is no character of its own. -/
theorem ne_of_literal (h : parse limits source = .ok p) {a : Atom} (ha : a ∈ p.atoms) {c : Char}
    {q : Option Quantifier} (hpiece : a.piece = .single (.literal c) q) : c ≠ 'Z' := by
  obtain ⟨-, us, -, -, -, rfl⟩ := parse_eq_ok_iff.mp h
  have hmem : a.piece ∈ (atomsOf us).map (·.piece) := by
    rw [← pieces_ofPhrases source us]
    exact List.mem_map_of_mem ha
  obtain ⟨b, hb, hpiece'⟩ := List.mem_map.mp hmem
  rw [hpiece] at hpiece'
  rcases mem_layout_of_mem_atomsOf hb with hrest | hlayout
  · rw [hrest] at hpiece'
    cases hpiece'
  · have hread := ofToken_of_mem_layout hlayout hpiece'
    rintro rfl
    cases hread

/-- What a mask is made of. -/
theorem inMask_iff {piece : Piece} :
    piece.inMask = true ↔ piece = .rest ∨ ∃ cls, piece = .single cls none ∧
      (cls.isDigitClass = true ∨ ∃ c, cls = .literal c ∧ c ≠ '$') := by
  cases piece with
  | rest => simp [Piece.inMask]
  | choice => simp [Piece.inMask]
  | single cls q =>
    cases q with
    | some q => simp [Piece.inMask]
    | none => cases cls <;> simp [Piece.inMask, CharClass.isDigitClass]

/-- The classes of atoms that are classes without quantifiers. -/
theorem exists_classes {members : List Atom}
    (h : ∀ a ∈ members, ∃ cls, a.piece = .single cls none ∧ cls.isDigitClass = true) :
    ∃ classes, List.Forall₂ (fun a cls => a.piece = .single cls none) members classes ∧
      ∀ cls ∈ classes, cls.isDigitClass = true := by
  induction members with
  | nil => exact ⟨[], .nil, List.forall_mem_nil _⟩
  | cons a members ih =>
    obtain ⟨⟨cls, hpiece, hdigits⟩, hmembers⟩ := List.forall_mem_cons.mp h
    obtain ⟨classes, hpieces, hclasses⟩ := ih hmembers
    exact ⟨cls :: classes, .cons hpiece hpieces, List.forall_mem_cons.mpr ⟨hdigits, hclasses⟩⟩

/-- Without groups there are no numbers. -/
theorem Grouped.eq_of_forall_none {n m : Nat} {atoms : List Atom} (h : Grouped n atoms m)
    (hnone : ∀ a ∈ atoms, a.group = none) : m = n := by
  induction h with
  | nil n => rfl
  | plain _ _ ih => exact ih fun a ha => hnone a (List.mem_cons_of_mem _ ha)
  | run hne hmembers _ _ =>
    obtain ⟨a, ha⟩ := List.exists_mem_of_ne_nil _ hne
    have hgroup := hmembers a ha
    rw [hnone a (List.mem_append_left _ ha)] at hgroup
    cases hgroup

/-- **Atoms fall into fields** if their groups are runs and they are what a mask is made of. -/
theorem Grouped.exists_fielded {n m : Nat} {atoms : List Atom} (h : Grouped n atoms m)
    (hlast : RestLast (atoms.map (·.piece)))
    (hplain : ∀ a ∈ atoms, a.piece.inMask = true)
    (hz : ∀ a ∈ atoms, ∀ c q, a.piece = .single (.literal c) q → c ≠ 'Z')
    (hgroup : ∀ a ∈ atoms, a.group.isSome = a.piece.capturing?.isSome)
    (hapart : atoms.IsChain fun a b => a.group = none ∨ b.group = none ∨ a.group = b.group) :
    ∃ fields, Fielded n atoms fields ∧ m = n + (classesOf fields).length := by
  induction h with
  | nil n => exact ⟨[], .nil n, rfl⟩
  | @plain n m a atoms hnone hatoms ih =>
    obtain ⟨hgroupa, hgroup⟩ := List.forall_mem_cons.mp hgroup
    obtain ⟨hza, hz⟩ := List.forall_mem_cons.mp hz
    obtain ⟨hplaina, hplain⟩ := List.forall_mem_cons.mp hplain
    rcases inMask_iff.mp hplaina with hrest | ⟨cls, hpiece, hdigits | ⟨c, rfl, hdollar⟩⟩
    · rw [List.map_cons, hrest] at hlast
      obtain rfl : atoms = [] := List.map_eq_nil_iff.mp hlast.eq_nil
      exact ⟨[.rest], .rest hnone hrest, hatoms.eq_of_forall_none (List.forall_mem_nil _)⟩
    · rw [hnone, hpiece] at hgroupa
      simp [Piece.capturing?, hdigits] at hgroupa
    · obtain ⟨fields, hfields, hm⟩ :=
        ih hlast.tail hplain hz hgroup (List.isChain_cons.mp hapart).2
      exact ⟨.own c :: fields, .own hnone hpiece hdollar (hza c none hpiece) hfields, hm⟩
  | @run n m members atoms hne hmembers hatoms ih =>
    rw [List.map_append] at hlast
    obtain ⟨hgroupm, hgroup⟩ := List.forall_mem_append.mp hgroup
    obtain ⟨-, hz⟩ := List.forall_mem_append.mp hz
    obtain ⟨hplainm, hplain⟩ := List.forall_mem_append.mp hplain
    obtain ⟨-, hapart, hseam⟩ := List.isChain_append.mp hapart
    obtain ⟨fields, hfields, hm⟩ := ih hlast.of_append hplain hz hgroup hapart
    obtain ⟨classes, hpieces, hclasses⟩ : ∃ classes,
        List.Forall₂ (fun a cls => a.piece = .single cls none) members classes ∧
          ∀ cls ∈ classes, cls.isDigitClass = true := by
      refine exists_classes fun a ha => ?_
      have hcap := hgroupm a ha
      rw [hmembers a ha] at hcap
      rcases inMask_iff.mp (hplainm a ha) with hrest | ⟨cls, hpiece, hdigits | ⟨c, rfl, -⟩⟩
      · rw [hrest] at hcap
        cases hcap
      · exact ⟨cls, hpiece, hdigits⟩
      · rw [hpiece] at hcap
        cases hcap
    -- the numbers behind the run are higher, so that another group would stand beside it
    have hnext : ∀ a ∈ atoms.head?, a.group = none := by
      intro a ha
      cases hk : a.group with
      | none => rfl
      | some k =>
        have hlt := hatoms.le_group (List.mem_of_mem_head? ha) hk
        obtain ⟨b, hb⟩ := List.getLast?_isSome.mpr hne |> Option.isSome_iff_exists.mp
        have hsame := hseam b hb a ha
        rw [hmembers b (List.mem_of_mem_getLast? hb), hk] at hsame
        obtain rfl : n = k := by simpa using hsame
        omega
    refine ⟨.digits classes :: fields, .digits hne hmembers hpieces hclasses hnext hfields, ?_⟩
    rw [hm, classesOf_digits, List.length_cons]
    omega

/-- **A mask falls into fields.** -/
theorem IsMask.exists_fielded (hp : p.IsMask) (h : parse limits source = .ok p) :
    ∃ fields, Fielded 0 p.atoms fields ∧ p.groupCount = (classesOf fields).length := by
  obtain ⟨fields, hfields, hcount⟩ := (grouped_of_parse h).exists_fielded (restLast_of_parse h)
    hp.plain (fun a ha c q => ne_of_literal h ha) (fun a ha => group_isSome_iff_of_parse h ha)
    hp.apart
  exact ⟨fields, hfields, by rw [hcount, Nat.zero_add]⟩

/-! ## The groups of the fields -/

/-- The numbers of the groups in some fields, of which the first is given. -/
def groupsFrom (n : Nat) (fields : List Field) : List Nat := List.range' n (classesOf fields).length

@[simp] theorem groupsFrom_own (n : Nat) (c : Char) (fields : List Field) :
    groupsFrom n (.own c :: fields) = groupsFrom n fields := rfl

@[simp] theorem groupsFrom_digits (n : Nat) (classes : List CharClass) (fields : List Field) :
    groupsFrom n (.digits classes :: fields) = n :: groupsFrom (n + 1) fields := rfl

/-- The numbers start with the first one. -/
theorem le_of_mem_groupsFrom {n k : Nat} {fields : List Field} (h : k ∈ groupsFrom n fields) :
    n ≤ k := (List.mem_range'_1.mp h).1

/-- All atoms of a run belong to its group. -/
theorem filter_group_eq_self {members : List Atom} {n : Nat}
    (h : ∀ a ∈ members, a.group = some n) : members.filter (·.group = some n) = members :=
  List.filter_eq_self.mpr fun a ha => decide_eq_true (h a ha)

/-- No atom belongs to a group if none has its number. -/
theorem filter_group_eq_nil {atoms : List Atom} {n : Nat} (h : ∀ a ∈ atoms, a.group ≠ some n) :
    atoms.filter (·.group = some n) = [] :=
  List.filter_eq_nil_iff.mpr fun a ha => by simpa using h a ha

/-- What is a class does not take all that is left. -/
theorem piece_ne_rest_of_classes {members : List Atom} {classes : List CharClass}
    (h : List.Forall₂ (fun a cls => a.piece = .single cls none) members classes) :
    ∀ a ∈ members, a.piece ≠ .rest := by
  induction h with
  | nil => exact List.forall_mem_nil _
  | cons hpiece _ ih =>
    refine List.forall_mem_cons.mpr ⟨?_, ih⟩
    rw [hpiece]
    exact nofun

namespace Fielded

variable {n : Nat} {atoms : List Atom} {fields : List Field}

/-- No number is lower than the first. -/
theorem group_ne (h : Fielded n atoms fields) {k : Nat} (hk : k < n) :
    ∀ a ∈ atoms, a.group ≠ some k := by
  induction h with
  | nil n => exact List.forall_mem_nil _
  | own hgroup _ _ _ _ ih =>
    refine List.forall_mem_cons.mpr ⟨?_, ih hk⟩
    rw [hgroup]
    exact nofun
  | rest hgroup _ =>
    refine List.forall_mem_singleton.mpr ?_
    rw [hgroup]
    exact nofun
  | digits _ hgroup _ _ _ _ ih =>
    refine List.forall_mem_append.mpr ⟨fun a ha => ?_, ih (by omega)⟩
    rw [hgroup a ha, ne_eq, Option.some.injEq]
    omega

/-- **The letters of the groups are those of the classes.** -/
theorem map_letters (h : Fielded n atoms fields) :
    ((groupsFrom n fields).map fun k =>
        (atoms.filter (·.group = some k)).map (·.piece.token)) =
      (classesOf fields).map (·.map CharClass.token) := by
  induction h with
  | nil n => rfl
  | own hgroup _ _ _ _ ih =>
    rw [groupsFrom_own, classesOf_own, ← ih]
    refine List.map_congr_left fun k _ => ?_
    rw [List.filter_cons_of_neg (by simp [hgroup])]
  | rest hgroup _ => rfl
  | @digits n members atoms classes fields _ hgroup hpieces _ _ h ih =>
    have htokens : members.map (·.piece.token) = classes.map CharClass.token := by
      rw [← List.forall₂_eq_eq_eq, List.forall₂_map_left_iff, List.forall₂_map_right_iff]
      exact hpieces.imp fun a cls hpiece => by rw [hpiece]; rfl
    rw [groupsFrom_digits, classesOf_digits, List.map_cons, List.map_cons, ← ih,
      List.filter_append, filter_group_eq_self hgroup,
      filter_group_eq_nil (h.group_ne (Nat.lt_succ_self n)), List.append_nil, htokens]
    refine congrArg _ (List.map_congr_left fun k hk => ?_)
    have hlt := le_of_mem_groupsFrom hk
    rw [List.filter_append, filter_group_eq_nil (fun a ha => ?_), List.nil_append]
    rw [hgroup a ha, ne_eq, Option.some.injEq]
    omega

/-- The classes of the groups are digit classes. -/
theorem isDigitClass_of_mem (h : Fielded n atoms fields) :
    ∀ classes ∈ classesOf fields, ∀ cls ∈ classes, cls.isDigitClass = true := by
  induction h with
  | nil n => exact List.forall_mem_nil _
  | own _ _ _ _ _ ih => exact ih
  | rest => exact List.forall_mem_nil _
  | digits _ _ _ hclasses _ _ ih => exact List.forall_mem_cons.mpr ⟨hclasses, ih⟩

/-- There is a field for what is left exactly if an atom takes it. -/
theorem rest_mem_iff (h : Fielded n atoms fields) :
    .rest ∈ fields ↔ ∃ a ∈ atoms, a.piece = .rest := by
  induction h with
  | nil n => simp
  | own _ hpiece _ _ _ ih => simp [ih, hpiece]
  | rest _ hpiece => simp [hpiece]
  | digits _ _ hpieces _ _ _ ih =>
    have hmembers := piece_ne_rest_of_classes hpieces
    rw [List.mem_cons, or_iff_right nofun, ih]
    constructor
    · rintro ⟨a, ha, hrest⟩
      exact ⟨a, List.mem_append_right _ ha, hrest⟩
    · rintro ⟨a, ha, hrest⟩
      exact ⟨a, (List.mem_append.mp ha).resolve_left fun hmem => hmembers a hmem hrest, hrest⟩

end Fielded

/-- A digit class is read from its letter. -/
theorem ofToken_token {cls : CharClass} (h : cls.isDigitClass = true) :
    CharClass.ofToken cls.token = cls := by
  cases cls with
  | restricted | anyDigit | nextDigit | nonZero => rfl
  | wildcard | literal => cases h

/-- The letters of digit classes say which classes they are. -/
theorem map_ofToken_token {classes : List (List CharClass)}
    (h : ∀ cs ∈ classes, ∀ cls ∈ cs, cls.isDigitClass = true) :
    (classes.map (·.map CharClass.token)).map (·.map CharClass.ofToken) = classes := by
  have hone : ∀ cs ∈ classes, (cs.map CharClass.token).map CharClass.ofToken = cs := by
    intro cs hcs
    rw [List.map_map]
    exact (List.map_congr_left fun cls hcls => ofToken_token (h cs hcs cls hcls)).trans
      (List.map_id cs)
  rw [List.map_map]
  exact (List.map_congr_left hone).trans (List.map_id classes)

/-- **Masks with the same letters in their groups have the same classes.** -/
theorem classesOf_eq {p' : Pattern} {fields fields' : List Field}
    (h : Fielded 0 p.atoms fields) (hcount : p.groupCount = (classesOf fields).length)
    (h' : Fielded 0 p'.atoms fields') (hcount' : p'.groupCount = (classesOf fields').length)
    (hletters : p.groupLetters = p'.groupLetters) : classesOf fields = classesOf fields' := by
  have hleft := h.map_letters
  have hright := h'.map_letters
  rw [groupsFrom, ← List.range_eq_range', ← hcount] at hleft
  rw [groupsFrom, ← List.range_eq_range', ← hcount'] at hright
  have heq : (classesOf fields).map (·.map CharClass.token) =
      (classesOf fields').map (·.map CharClass.token) :=
    hleft.symm.trans (hletters.trans hright)
  rw [← map_ofToken_token h.isDigitClass_of_mem, heq, map_ofToken_token h'.isDigitClass_of_mem]

/-! ## Reading -/

/-- A capture of classes in a row is what their segments hold. -/
theorem spells_join {members : List Atom} {classes : List CharClass} {segments : List String}
    (hpieces : List.Forall₂ (fun a cls => a.piece = .single cls none) members classes)
    (hadm : List.Forall₂ (fun a s => a.piece.Admits s.toList) members segments) :
    Spells classes (String.join segments) := by
  rw [Spells, String.toList_join]
  induction hpieces generalizing segments with
  | nil =>
    rw [List.forall₂_nil_left_iff.mp hadm]
    exact .nil
  | cons hpiece _ ih =>
    obtain ⟨s, segments, hs, hsegments, rfl⟩ := List.forall₂_cons_left_iff.mp hadm
    rw [hpiece] at hs
    obtain ⟨d, hd, hholds⟩ := admits_single_none_iff.mp hs
    rw [List.flatMap_cons, hd, List.singleton_append]
    exact .cons hholds (ih hsegments)

/-- What a group captures in two stretches of atoms. -/
theorem capture_append {as bs : List Atom} {ss ts : List String} (hlen : as.length = ss.length)
    (k : Nat) : capture (as ++ bs) (ss ++ ts) k = capture as ss k ++ capture bs ts k := by
  rw [capture, List.zip_append hlen, List.filter_append, List.map_append, String.join_append]
  rfl

/-- What is captured where no atom belongs to the group. -/
theorem capture_eq_empty {as : List Atom} {k : Nat} (h : ∀ a ∈ as, a.group ≠ some k)
    (ss : List String) : capture as ss k = "" := by
  have hnone : (as.zip ss).filter (fun q => q.1.group = some k) = [] :=
    List.filter_eq_nil_iff.mpr fun q hq => by simpa using h q.1 (List.of_mem_zip hq).1
  rw [capture, hnone]
  rfl

/-- What is captured where all atoms belong to the group. -/
theorem capture_eq_join {as : List Atom} {ss : List String} {k : Nat}
    (h : ∀ a ∈ as, a.group = some k) (hlen : as.length = ss.length) :
    capture as ss k = String.join ss := by
  have hall : (as.zip ss).filter (fun q => q.1.group = some k) = as.zip ss :=
    List.filter_eq_self.mpr fun q hq => decide_eq_true (h q.1 (List.of_mem_zip hq).1)
  rw [capture, hall, List.map_snd_zip hlen.ge]

/-- Atoms that do not take all that is left have no part in the rest. -/
theorem restCapture_append {as bs : List Atom} {ss ts : List String}
    (h : ∀ a ∈ as, a.piece ≠ .rest) (hlen : as.length = ss.length) :
    restCapture (as ++ bs) (ss ++ ts) = restCapture bs ts := by
  have hnone : (as.zip ss).find? (fun q => q.1.piece = .rest) = none :=
    List.find?_eq_none.mpr fun q hq => by simpa using h q.1 (List.of_mem_zip hq).1
  rw [restCapture, List.zip_append hlen, List.find?_append, hnone, Option.none_or]
  rfl

/-- **A text is what its captures fill the fields with**, and the captures are spelled by the
classes. -/
theorem Fielded.captured {n : Nat} {atoms : List Atom} {fields : List Field}
    (h : Fielded n atoms fields) {segments : List String}
    (hadm : List.Forall₂ (fun a s => a.piece.Admits s.toList) atoms segments) :
    List.Forall₂ Spells (classesOf fields)
        ((groupsFrom n fields).map (capture atoms segments)) ∧
      (String.join segments).toList =
        fill fields ((groupsFrom n fields).map (capture atoms segments))
          (restCapture atoms segments) := by
  induction h generalizing segments with
  | nil n =>
    rw [List.forall₂_nil_left_iff.mp hadm]
    exact ⟨.nil, rfl⟩
  | @own n a c atoms fields hgroup hpiece _ _ _ ih =>
    obtain ⟨s, segments, hs, hsegments, rfl⟩ := List.forall₂_cons_left_iff.mp hadm
    obtain ⟨hspells, hfill⟩ := ih hsegments
    rw [hpiece] at hs
    obtain ⟨d, hd, rfl⟩ := admits_single_none_iff.mp hs
    have hcaptures : ∀ k, capture (a :: atoms) (s :: segments) k = capture atoms segments k := by
      intro k
      have hempty : capture [a] [s] k = "" :=
        capture_eq_empty (List.forall_mem_singleton.mpr (by rw [hgroup]; exact nofun)) _
      have hsplit : capture ([a] ++ atoms) ([s] ++ segments) k = _ := capture_append rfl k
      rwa [hempty, String.empty_append] at hsplit
    have hrest : restCapture ([a] ++ atoms) ([s] ++ segments) = restCapture atoms segments :=
      restCapture_append (List.forall_mem_singleton.mpr (by rw [hpiece]; exact nofun)) rfl
    rw [List.singleton_append, List.singleton_append] at hrest
    rw [groupsFrom_own, classesOf_own, funext hcaptures, hrest]
    refine ⟨hspells, ?_⟩
    rw [fill, ← hfill, String.toList_join, List.flatMap_cons, hd, String.toList_join]
    rfl
  | @rest n a _ hpiece =>
    obtain ⟨s, segments, -, hsegments, rfl⟩ := List.forall₂_cons_left_iff.mp hadm
    rw [List.forall₂_nil_left_iff.mp hsegments]
    refine ⟨.nil, ?_⟩
    have hrest : restCapture [a] [s] = some s := by simp [restCapture, hpiece]
    rw [hrest, String.toList_join]
    rfl
  | @digits n members atoms classes fields _ hgroup hpieces _ _ h ih =>
    -- the segments of the group and those behind it
    obtain ⟨ss, ts, rfl, hss, hts⟩ : ∃ ss ts, segments = ss ++ ts ∧
        List.Forall₂ (fun a s => a.piece.Admits s.toList) members ss ∧
        List.Forall₂ (fun a s => a.piece.Admits s.toList) atoms ts :=
      ⟨_, _, (List.take_append_drop members.length segments).symm,
        (List.forall₂_take_append _ _ _ hadm.flip).flip,
        (List.forall₂_drop_append _ _ _ hadm.flip).flip⟩
    obtain ⟨hspells, hfill⟩ := ih hts
    have hlen := hss.length_eq
    have hfirst : capture (members ++ atoms) (ss ++ ts) n = String.join ss := by
      rw [capture_append hlen, capture_eq_join hgroup hlen,
        capture_eq_empty (h.group_ne (Nat.lt_succ_self n)), String.append_empty]
    have hlater : (groupsFrom (n + 1) fields).map (capture (members ++ atoms) (ss ++ ts)) =
        (groupsFrom (n + 1) fields).map (capture atoms ts) := by
      refine List.map_congr_left fun k hk => ?_
      have hlt := le_of_mem_groupsFrom hk
      rw [capture_append hlen, capture_eq_empty (fun a ha => ?_), String.empty_append]
      rw [hgroup a ha, ne_eq, Option.some.injEq]
      omega
    have hrest : restCapture (members ++ atoms) (ss ++ ts) = restCapture atoms ts :=
      restCapture_append (piece_ne_rest_of_classes hpieces) hlen
    rw [groupsFrom_digits, classesOf_digits, List.map_cons, hfirst, hlater, hrest]
    refine ⟨.cons (spells_join hpieces hss) hspells, ?_⟩
    rw [fill_digits, ← hfill, String.join_append, String.toList_append]

/-! ## Writing -/

/-- A run of `$` with something else behind it is one part. -/
theorem templateParts_run {cs : List Char} (h : cs.head? ≠ some '$') (n : Nat) :
    templateParts (List.replicate (n + 1) '$' ++ cs) = .run (n + 1) :: templateParts cs := by
  induction n with
  | zero =>
    change TemplatePart.lengthen (templateParts cs) = _
    cases cs with
    | nil => rfl
    | cons c cs =>
      have hc : c ≠ '$' := fun hc => h (congrArg some hc)
      rw [templateParts, if_neg hc]
      split_ifs <;> rfl
  | succ n ih =>
    rw [List.replicate_succ, List.cons_append, templateParts, if_pos rfl, ih]
    rfl

/-- **The parts of the mirror write the fields.** -/
theorem Fielded.templateParts_mirror {n : Nat} {atoms : List Atom} {fields : List Field}
    (h : Fielded n atoms fields) :
    templateParts (atoms.map mirrorToken) = fields.map Field.part := by
  induction h with
  | nil n => rfl
  | @own n a c atoms fields hgroup hpiece hdollar hz _ ih =>
    have htoken : mirrorToken a = c := by
      rw [mirrorToken, hgroup, hpiece]
      rfl
    rw [List.map_cons, htoken, templateParts, if_neg hdollar, if_neg hz, ih]
    rfl
  | rest hgroup hpiece =>
    rw [List.map_singleton, mirrorToken, hgroup, hpiece]
    rfl
  | @digits n members atoms classes fields hne hgroup hpieces _ hnext h ih =>
    have htokens : members.map mirrorToken = List.replicate classes.length '$' := by
      rw [← hpieces.length_eq]
      refine List.map_eq_replicate_iff.mpr fun a ha => ?_
      rw [mirrorToken, hgroup a ha]
      rfl
    -- the run ends where the group does
    have hend : (atoms.map mirrorToken).head? ≠ some '$' := by
      cases h with
      | nil => simp
      | own hgroup hpiece hdollar =>
        rw [List.map_cons, mirrorToken, hgroup, hpiece]
        exact fun heq => hdollar (Option.some.inj heq)
      | rest hgroup hpiece =>
        rw [List.map_singleton, mirrorToken, hgroup, hpiece]
        exact fun heq => absurd (Option.some.inj heq) (by decide)
      | @digits _ members' _ _ _ hne' hgroup' =>
        obtain ⟨a, members', rfl⟩ := List.exists_cons_of_ne_nil hne'
        have hsome := hgroup' a List.mem_cons_self
        rw [hnext a rfl] at hsome
        cases hsome
    obtain ⟨k, hk⟩ := Nat.exists_eq_succ_of_ne_zero
      (show classes.length ≠ 0 from hpieces.length_eq ▸ mt List.length_eq_zero_iff.mp hne)
    rw [List.map_append, htokens, hk, templateParts_run hend, ih, List.map_cons, Field.part, hk]

/-- **Captures that are spelled by the classes are written into the fields**, under the strict rule
as well, if the text for what is left is there where it is asked for. -/
theorem write_parts {f : Filling} {fields : List Field} {groups : List String}
    {rest : Option String} (h : List.Forall₂ Spells (classesOf fields) groups)
    (hrest : .rest ∈ fields → f.rest = some (rest.getD "")) (index : Nat) :
    f.write index groups (fields.map Field.part) = .ok (fill fields groups rest) := by
  induction fields generalizing groups index with
  | nil =>
    rw [List.forall₂_nil_left_iff.mp h]
    rfl
  | cons field fields ih =>
    have hrest' : .rest ∈ fields → f.rest = some (rest.getD "") :=
      fun hmem => hrest (List.mem_cons_of_mem _ hmem)
    cases field with
    | own c =>
      rw [List.map_cons, Field.part, Filling.write, ih h hrest']
      rfl
    | rest =>
      rw [List.map_cons, Field.part, Filling.write, ih h hrest', hrest List.mem_cons_self]
      rfl
    | digits classes =>
      rw [classesOf_digits] at h
      obtain ⟨group, groups, hgroup, hgroups, rfl⟩ := List.forall₂_cons_left_iff.mp h
      have hlength : group.length = classes.length := by
        rw [← String.length_toList, ← hgroup.length_eq]
      rw [List.map_cons, Field.part, Filling.write, ih hgroups hrest', hlength]
      simp

/-- A pattern ends in an atom that takes all that is left exactly if it has one. -/
theorem hasRest_iff_exists (hlast : RestLast p.pieces) :
    p.hasRest = true ↔ ∃ a ∈ p.atoms, a.piece = .rest := by
  rw [hasRest, Option.any_eq_true]
  constructor
  · rintro ⟨a, ha, hrest⟩
    exact ⟨a, List.mem_of_getLast? ha, of_decide_eq_true hrest⟩
  · rintro ⟨a, ha, hrest⟩
    rw [RestLast, pieces] at hlast
    rcases List.eq_nil_or_concat p.atoms with hnil | ⟨before, b, hconcat⟩
    · rw [hnil] at ha
      cases ha
    · rw [hconcat, List.concat_eq_append, List.map_append, List.map_singleton,
        List.dropLast_concat] at hlast
      rw [hconcat, List.concat_eq_append] at ha ⊢
      rw [List.getLast?_concat]
      rcases List.mem_append.mp ha with ha | ha
      · exact absurd (List.mem_map.mpr ⟨a, ha, hrest⟩) hlast
      · exact ⟨a, congrArg some (List.mem_singleton.mp ha).symm, decide_eq_true hrest⟩

/-- **The mirror writes captures into the fields of its mask**, under the strict rule as well. -/
theorem render_mirror {fields : List Field} (h : Fielded 0 p.atoms fields)
    (hlast : RestLast p.pieces) {groups : List String} {rest : Option String}
    (hgroups : List.Forall₂ Spells (classesOf fields) groups) (strict : Bool) :
    render strict groups rest (some p.hasRest) p.mirror =
      .ok (String.ofList (fill fields groups rest)) := by
  rw [render, mirror, String.toList_ofList, h.templateParts_mirror]
  refine congrArg _ (write_parts hgroups (fun hmem => ?_) 0)
  rw [Option.getD_some, (hasRest_iff_exists hlast).mpr (h.rest_mem_iff.mp hmem), if_pos rfl]

/-! ## Back -/

/-- What is spelled by classes can be cut among them. -/
theorem cuttable_of_spells {members : List Atom} {classes : List CharClass} {cs : List Char}
    (hpieces : List.Forall₂ (fun a cls => a.piece = .single cls none) members classes)
    (h : List.Forall₂ CharClass.Holds classes cs) : Cuttable (members.map (·.piece)) cs := by
  have hclasses : members.map (·.piece) = classes.map (Piece.single · none) := by
    rwa [← List.forall₂_eq_eq_eq, List.forall₂_map_left_iff, List.forall₂_map_right_iff]
  rw [hclasses]
  exact cuttable_singles_iff.mpr h

/-- **What the fields are filled with can be cut among the atoms.** -/
theorem Fielded.cuttable_fill {n : Nat} {atoms : List Atom} {fields : List Field}
    (h : Fielded n atoms fields) {groups : List String}
    (hgroups : List.Forall₂ Spells (classesOf fields) groups) (rest : Option String) :
    Cuttable (atoms.map (·.piece)) (fill fields groups rest) := by
  induction h generalizing groups with
  | nil n => exact cuttable_nil_iff.mpr rfl
  | @own n a c atoms fields _ hpiece _ _ _ ih =>
    rw [List.map_cons, hpiece]
    refine cuttable_cons_iff.mpr ⟨[c], _, rfl, ?_, ih hgroups⟩
    exact admits_single_none_iff.mpr ⟨c, rfl, rfl⟩
  | rest _ hpiece =>
    rw [List.map_singleton, hpiece]
    exact cuttable_cons_iff.mpr ⟨_, [], rfl, trivial, cuttable_nil_iff.mpr rfl⟩
  | digits _ _ hpieces _ _ _ ih =>
    rw [classesOf_digits] at hgroups
    obtain ⟨group, groups, hgroup, hlater, rfl⟩ := List.forall₂_cons_left_iff.mp hgroups
    rw [List.map_append, cuttable_append_iff]
    exact ⟨group.toList, _, rfl, cuttable_of_spells hpieces hgroup, ih hlater⟩

/-- **Only the same captures fill the fields with the same text.** -/
theorem Fielded.fill_injective {n : Nat} {atoms : List Atom} {fields : List Field}
    (h : Fielded n atoms fields) {groups groups' : List String} {rest rest' : Option String}
    (hgroups : List.Forall₂ Spells (classesOf fields) groups)
    (hgroups' : List.Forall₂ Spells (classesOf fields) groups')
    (hfill : fill fields groups rest = fill fields groups' rest') :
    groups = groups' ∧ (.rest ∈ fields → rest.getD "" = rest'.getD "") := by
  induction h generalizing groups groups' with
  | nil n =>
    rw [List.forall₂_nil_left_iff.mp hgroups, List.forall₂_nil_left_iff.mp hgroups']
    exact ⟨rfl, nofun⟩
  | own _ _ _ _ _ ih =>
    obtain ⟨heq, hrest⟩ := ih hgroups hgroups' (List.cons.inj hfill).2
    exact ⟨heq, fun hmem => hrest ((List.mem_cons.mp hmem).resolve_left nofun)⟩
  | rest =>
    rw [List.forall₂_nil_left_iff.mp hgroups, List.forall₂_nil_left_iff.mp hgroups']
    rw [fill, fill, fill, fill, List.append_nil, List.append_nil] at hfill
    exact ⟨rfl, fun _ => String.toList_inj.mp hfill⟩
  | digits _ _ _ _ _ _ ih =>
    rw [classesOf_digits] at hgroups hgroups'
    obtain ⟨group, groups, hgroup, hlater, rfl⟩ := List.forall₂_cons_left_iff.mp hgroups
    obtain ⟨group', groups', hgroup', hlater', rfl⟩ := List.forall₂_cons_left_iff.mp hgroups'
    rw [fill_digits, fill_digits] at hfill
    have hlength : group.toList.length = group'.toList.length :=
      hgroup.length_eq.symm.trans hgroup'.length_eq
    obtain ⟨hhead, htail⟩ := List.append_inj hfill hlength
    obtain ⟨heq, hrest⟩ := ih hlater hlater' htail
    rw [String.toList_inj.mp hhead, heq]
    exact ⟨rfl, fun hmem => hrest ((List.mem_cons.mp hmem).resolve_left nofun)⟩

end Pattern

end CallRouting

import CallRouting.Proofs.Captures
import CallRouting.Proofs.Decision

/-!
# The shape of a pattern

Where the classes inside a group stand in the pattern's text matters for reports only. Without these
positions the pieces of a pattern are its *shape*, and the search asks for nothing else.

* **Shape** (`Piece.unplaced`, `shape`): the pieces with every position inside a group set to zero.
  Patterns of one shape are searched alike (`trace_eq_of_shape`, `tooDeep_eq_of_shape`), and fit
  alike if their groups are numbered alike (`fit?_eq_of_shape`).
* **Answers** (`decision_fits_eq_true_iff`, `decision_fits_eq_error_iff`): an exchange answers that
  a text fits exactly if the text can be cut (`Cuttable`) and there is room for the search.
-/

namespace CallRouting

open Exchange (decision fits fitTo)

/-! ## Texts that can be cut -/

namespace Pattern

/-- Whether a text can be cut among pieces with nothing left over. -/
def Cuttable (ps : List Piece) (cs : List Char) : Prop := ∃ segments, Cuts ps segments cs

/-- Whether a beginning of a text can be cut among pieces. -/
def Begins (ps : List Piece) (cs : List Char) : Prop := ∃ before, before <+: cs ∧ Cuttable ps before

/-- A class without a quantifier stands for one of its characters. -/
theorem admits_single_none_iff {cls : CharClass} {cs : List Char} :
    (Piece.single cls none).Admits cs ↔ ∃ d, cs = [d] ∧ cls.Holds d := by
  constructor
  · rintro ⟨⟨hlow, hhigh⟩, hall⟩
    obtain ⟨d, rfl⟩ := List.length_eq_one_iff.mp (Nat.le_antisymm (hhigh 1 rfl) hlow)
    exact ⟨d, rfl, hall d List.mem_cons_self⟩
  · rintro ⟨d, rfl, hd⟩
    exact ⟨⟨le_rfl, fun n hn => (Option.some.inj hn).le⟩,
      fun c hc => (List.mem_singleton.mp hc) ▸ hd⟩

/-- Nothing can be cut among no pieces but the empty text. -/
theorem cuttable_nil_iff {cs : List Char} : Cuttable [] cs ↔ cs = [] := by
  constructor
  · rintro ⟨segments, hadm, rfl⟩
    rw [List.forall₂_nil_left_iff.mp hadm]
    rfl
  · rintro rfl
    exact ⟨[], .nil, rfl⟩

/-- A text is cut among a piece and further pieces where the piece's segment ends. -/
theorem cuttable_cons_iff {piece : Piece} {ps : List Piece} {cs : List Char} :
    Cuttable (piece :: ps) cs ↔ ∃ u v, u ++ v = cs ∧ piece.Admits u ∧ Cuttable ps v := by
  constructor
  · rintro ⟨segments, hadm, rfl⟩
    obtain ⟨u, rest, hu, hrest, rfl⟩ := List.forall₂_cons_left_iff.mp hadm
    exact ⟨u, rest.flatten, rfl, hu, rest, hrest, rfl⟩
  · rintro ⟨u, v, rfl, hu, segments, hadm, rfl⟩
    exact ⟨u :: segments, .cons hu hadm, rfl⟩

/-- Among classes without quantifiers a text is cut character by character. -/
theorem cuttable_singles_iff {classes : List CharClass} {cs : List Char} :
    Cuttable (classes.map (Piece.single · none)) cs ↔ List.Forall₂ CharClass.Holds classes cs := by
  induction classes generalizing cs with
  | nil => rw [List.map_nil, cuttable_nil_iff, List.forall₂_nil_left_iff]
  | cons cls classes ih =>
    rw [List.map_cons, cuttable_cons_iff, List.forall₂_cons_left_iff]
    constructor
    · rintro ⟨u, v, rfl, hu, hv⟩
      obtain ⟨d, rfl, hd⟩ := admits_single_none_iff.mp hu
      exact ⟨d, v, hd, ih.mp hv, rfl⟩
    · rintro ⟨d, v, hd, hv, rfl⟩
      exact ⟨[d], v, rfl, admits_single_none_iff.mpr ⟨d, rfl, hd⟩, ih.mpr hv⟩

/-- **A text is cut among two sequences of pieces at a seam.** -/
theorem cuttable_append_iff {ps qs : List Piece} {cs : List Char} :
    Cuttable (ps ++ qs) cs ↔ ∃ u v, u ++ v = cs ∧ Cuttable ps u ∧ Cuttable qs v := by
  induction ps generalizing cs with
  | nil =>
    constructor
    · intro h
      exact ⟨[], cs, rfl, cuttable_nil_iff.mpr rfl, h⟩
    · rintro ⟨u, v, rfl, hu, hv⟩
      rw [cuttable_nil_iff.mp hu]
      exact hv
  | cons piece ps ih =>
    rw [List.cons_append, cuttable_cons_iff]
    constructor
    · rintro ⟨u, v, rfl, hu, hv⟩
      obtain ⟨v, w, rfl, hv, hw⟩ := ih.mp hv
      exact ⟨u ++ v, w, List.append_assoc .., cuttable_cons_iff.mpr ⟨u, v, rfl, hu, hv⟩, hw⟩
    · rintro ⟨u, w, rfl, hu, hw⟩
      obtain ⟨u, v, rfl, hu, hv⟩ := cuttable_cons_iff.mp hu
      exact ⟨u, v ++ w, (List.append_assoc ..).symm, hu, ih.mpr ⟨v, w, rfl, hv, hw⟩⟩

/-- A text that can be cut among all pieces begins with one that can be cut among the first. -/
theorem Cuttable.begins_take {ps : List Piece} {cs : List Char} (h : Cuttable ps cs) (n : Nat) :
    Begins (ps.take n) cs := by
  obtain ⟨before, segments, hbefore, hcuts⟩ := exists_cuts_take h n
  exact ⟨before, hbefore, segments, hcuts⟩

end Pattern

/-! ## Pieces without positions -/

/-- A class without its position. -/
def Slot.unplaced (slot : Slot) : Slot := { slot with position := 0 }

/-- A piece without the positions inside a group. -/
def Piece.unplaced : Piece → Piece
  | .single cls q => .single cls q
  | .choice alternatives => .choice (alternatives.map (·.map Slot.unplaced))
  | .rest => .rest

namespace Piece

/-- Positions do not matter for what an alternative takes. -/
theorem takeAlternative_unplaced (slots : List Slot) (cs : List Char) :
    takeAlternative (slots.map Slot.unplaced) cs = takeAlternative slots cs := by
  induction slots generalizing cs with
  | nil => rfl
  | cons slot slots ih =>
    cases cs with
    | nil => rfl
    | cons c cs =>
      rw [List.map_cons, takeAlternative, takeAlternative, ih]
      rfl

/-- Positions do not matter for the ways to take. -/
@[simp] theorem takes_unplaced (piece : Piece) (cs : List Char) :
    piece.unplaced.takes cs = piece.takes cs := by
  cases piece with
  | single cls q => rfl
  | choice alternatives =>
    simp only [unplaced, takes, List.filterMap_map, Function.comp_def, takeAlternative_unplaced]
  | rest => rfl

/-- Positions do not matter for the characters that a piece can stand for. -/
@[simp] theorem admits_unplaced {piece : Piece} {cs : List Char} :
    piece.unplaced.Admits cs ↔ piece.Admits cs := by
  cases piece with
  | single cls q => exact Iff.rfl
  | choice alternatives =>
    simp only [unplaced, Admits, List.mem_map, exists_exists_and_eq_and,
      List.forall₂_map_left_iff]
    exact Iff.rfl
  | rest => exact Iff.rfl

@[simp] theorem capturing?_unplaced (piece : Piece) :
    piece.unplaced.capturing? = piece.capturing? := by
  cases piece <;> rfl

@[simp] theorem quantifier?_unplaced (piece : Piece) :
    piece.unplaced.quantifier? = piece.quantifier? := by
  cases piece <;> rfl

/-- Only the piece that takes all that is left looks like it without positions. -/
@[simp] theorem unplaced_eq_rest_iff {piece : Piece} : piece.unplaced = .rest ↔ piece = .rest := by
  cases piece <;> simp [unplaced]

end Piece

namespace Pattern

/-- Positions do not matter for where a text can be cut. -/
@[simp] theorem cuttable_map_unplaced_iff {ps : List Piece} {cs : List Char} :
    Cuttable (ps.map Piece.unplaced) cs ↔ Cuttable ps cs := by
  induction ps generalizing cs with
  | nil => exact Iff.rfl
  | cons piece ps ih =>
    rw [List.map_cons, cuttable_cons_iff, cuttable_cons_iff]
    simp only [Piece.admits_unplaced, ih]

/-- **Positions do not matter for the search.** -/
theorem searchFrom_map_unplaced (ps : List Piece) :
    searchFrom (ps.map Piece.unplaced) = searchFrom ps := by
  induction ps with
  | nil => rfl
  | cons piece ps ih =>
    funext place cs j
    simp only [List.map_cons, searchFrom, Piece.takes_unplaced, ih]

/-! ## Patterns of one shape -/

/-- The pieces of a pattern without positions. -/
def shape (p : Pattern) : List Piece := p.pieces.map Piece.unplaced

@[simp] theorem length_shape (p : Pattern) : p.shape.length = p.atoms.length := by simp [shape]

variable {p q : Pattern} {text : String}

/-- The atoms of patterns of one shape, said of any property that positions do not matter for. -/
theorem map_piece_eq_of_shape {β : Type} (g : Piece → β) (hg : ∀ piece, g piece.unplaced = g piece)
    (h : p.shape = q.shape) :
    p.atoms.map (fun a => g a.piece) = q.atoms.map (fun a => g a.piece) := by
  have key : ∀ p : Pattern, p.atoms.map (fun a => g a.piece) = p.shape.map g := by
    intro p
    simp only [shape, pieces, List.map_map, Function.comp_def, hg]
  rw [key, key, h]

/-- Patterns of one shape are searched alike. -/
theorem trace_eq_of_shape (h : p.shape = q.shape) (text : String) :
    p.trace text = q.trace text := by
  have key : ∀ p : Pattern, p.trace text =
      searchFrom p.shape (0, 0) text.toList (.blank p.shape.length) := by
    intro p
    rw [length_shape]
    rw [shape, searchFrom_map_unplaced]
    rfl
  rw [key, key, h]

/-- For patterns of one shape there is room for the same searches. -/
theorem tooDeep_eq_of_shape (h : p.shape = q.shape) (room : Nat) (text : String) :
    p.tooDeep room text = q.tooDeep room text := by
  have key : ∀ p : Pattern, p.tooDeep room text = (decide (room < p.shape.length) &&
      (searchFrom (p.shape.take room ++ [Piece.rest]) (0, 0) text.toList
        (.blank (p.shape.take room ++ [Piece.rest]).length)).1) := by
    intro p
    have hstart : p.shape.take room ++ [Piece.rest] =
        ((p.atoms.take room).map (fun a => a.piece) ++ [Piece.rest]).map Piece.unplaced := by
      simp [shape, pieces, List.map_take, Piece.unplaced]
    rw [hstart, searchFrom_map_unplaced, length_shape, List.length_map]
    rfl
  rw [key, key, h]

/-- **Patterns of one shape with the same groups fit alike.** -/
theorem fit?_eq_of_shape (h : p.shape = q.shape)
    (hgroups : p.atoms.map (·.group) = q.atoms.map (·.group))
    (hcount : p.groupCount = q.groupCount) (text : String) : p.fit? text = q.fit? text := by
  have hrest := map_piece_eq_of_shape (fun piece => decide (piece = .rest)) (by simp) h
  have hfit : ∀ segments, p.fitOf segments = q.fitOf segments := by
    intro segments
    rw [fitOf, fitOf, captured, captured, hcount, foldl_add_congr hgroups hrest]
  rw [fit?, fit?, trace_eq_of_shape h]
  simp only [hfit]

/-- The groups are numbered by what captures. -/
theorem numberGroups_congr (previous : Option (CharClass × Nat)) (count : Nat) {xs ys : List Atom}
    (h : xs.map (fun a => a.piece.capturing?) = ys.map (fun a => a.piece.capturing?))
    (hxs : ∀ a ∈ xs, a.group = none) (hys : ∀ a ∈ ys, a.group = none) :
    (numberGroups previous count xs).1.map (·.group) =
        (numberGroups previous count ys).1.map (·.group) ∧
      (numberGroups previous count xs).2 = (numberGroups previous count ys).2 := by
  induction xs generalizing previous count ys with
  | nil =>
    rw [List.map_nil, eq_comm, List.map_eq_nil_iff] at h
    rw [h]
    exact ⟨rfl, rfl⟩
  | cons x xs ih =>
    cases ys with
    | nil => cases h
    | cons y ys =>
      rw [List.map_cons, List.map_cons, List.cons.injEq] at h
      obtain ⟨hx, hxs⟩ := List.forall_mem_cons.mp hxs
      obtain ⟨hy, hys⟩ := List.forall_mem_cons.mp hys
      rw [numberGroups, numberGroups, ← h.1]
      cases x.piece.capturing? with
      | none =>
        obtain ⟨hmap, hcount⟩ := ih none count h.2 hxs hys
        exact ⟨by simp [hx, hy, hmap], hcount⟩
      | some cls =>
        obtain ⟨hmap, hcount⟩ := ih (some (cls, nextGroup previous count cls))
          (max count (nextGroup previous count cls + 1)) h.2 hxs hys
        exact ⟨by simp [hmap], hcount⟩

/-- **Patterns that were read and have one shape differ in positions only**: they give every text
the same answer, with the same captures. -/
theorem fitTo_eq_of_shape {limits limits' : PatternLimits} {source source' : String}
    (hp : parse limits source = .ok p) (hq : parse limits' source' = .ok q)
    (h : p.shape = q.shape) (text : String) (room : Nat) :
    fitTo p text room = fitTo q text room := by
  have hgroups : p.atoms.map (·.group) = q.atoms.map (·.group) ∧ p.groupCount = q.groupCount := by
    obtain ⟨-, us, -, -, -, rfl⟩ := parse_eq_ok_iff.mp hp
    obtain ⟨-, vs, -, -, -, rfl⟩ := parse_eq_ok_iff.mp hq
    refine numberGroups_congr none 0 ?_ (fun _ => group_of_mem_atomsOf) fun _ => group_of_mem_atomsOf
    have key : ∀ source us, (atomsOf us).map (fun a => a.piece.capturing?) =
        (ofPhrases source us).shape.map Piece.capturing? := by
      intro source us
      rw [shape, pieces_ofPhrases, List.map_map, List.map_map]
      simp [Function.comp_def]
    rw [key source, key source', h]
  rw [fitTo, fitTo, tooDeep_eq_of_shape h room, fit?_eq_of_shape h hgroups.1 hgroups.2]

end Pattern

/-! ## Answers -/

open Pattern

variable {settings : Settings} {source : String} {p : Pattern}

/-- Whether a text fits is asked of the pattern that is read. -/
theorem decision_fits_of_parse (h : parse settings.limits source = .ok p) (text : String) :
    decision settings (fits source text) =
      if p.tooDeep settings.limits.room text = true then .error .tooDeep
      else .ok (p.fits text) := by
  rw [Exchange.decision_fits, Exchange.decision_fit?, Exchange.decision_pattern, h]
  change (fitTo p text settings.limits.room >>= fun answer => .ok answer.isSome) = _
  rw [fitTo]
  split_ifs <;> rfl

/-- A pattern that was read fits the texts that can be cut. -/
theorem fits_iff_cuttable (h : parse settings.limits source = .ok p) {text : String} :
    p.fits text = true ↔ Cuttable p.shape text.toList := by
  rw [fits_iff (restLast_of_parse h), shape, cuttable_map_unplaced_iff]
  exact Iff.rfl

/-- There is no room for a search exactly if there are more atoms than there is room for, and those
that there is room for can take a beginning of the text. -/
theorem tooDeep_iff_begins (h : parse settings.limits source = .ok p) {text : String} :
    p.tooDeep settings.limits.room text = true ↔
      settings.limits.room < p.atoms.length ∧
        Begins (p.shape.take settings.limits.room) text.toList := by
  rw [tooDeep_iff (restLast_of_parse h) settings.limits.room, shape, ← List.map_take]
  simp only [Begins, cuttable_map_unplaced_iff]
  simp only [Cuttable, exists_and_left]

/-- **An exchange answers that a text fits** exactly if the text can be cut and the pattern has no
more atoms than there is room for. -/
theorem decision_fits_eq_true_iff (h : parse settings.limits source = .ok p) {text : String} :
    decision settings (fits source text) = .ok true ↔
      p.atoms.length ≤ settings.limits.room ∧ Cuttable p.shape text.toList := by
  rw [decision_fits_of_parse h, ← fits_iff_cuttable h]
  by_cases hfew : p.atoms.length ≤ settings.limits.room
  · simp [tooDeep_eq_false hfew, hfew]
  · refine iff_of_false (fun hanswer => ?_) fun hboth => hfew hboth.1
    split_ifs at hanswer with hdeep
    have hcut := (fits_iff_cuttable h).mp (Except.ok.inj hanswer)
    exact hdeep ((tooDeep_iff_begins h).mpr ⟨by omega, hcut.begins_take settings.limits.room⟩)

/-- **An exchange fails to answer** only for lack of room. -/
theorem decision_fits_eq_error_iff (h : parse settings.limits source = .ok p) {text : String}
    {e : CallError} :
    decision settings (fits source text) = .error e ↔
      e = .tooDeep ∧ settings.limits.room < p.atoms.length ∧
        Begins (p.shape.take settings.limits.room) text.toList := by
  rw [decision_fits_of_parse h, ← tooDeep_iff_begins h]
  split_ifs with hdeep
  · simp [hdeep, eq_comm]
  · simp [hdeep]

/-- Of a text that can be cut an exchange answers that it fits, or there is no room for the
search. -/
theorem decision_fits_of_cuttable (h : parse settings.limits source = .ok p) {text : String}
    (hcut : Cuttable p.shape text.toList) :
    decision settings (fits source text) = .ok true ∨
      decision settings (fits source text) = .error .tooDeep ∧
        settings.limits.room < p.atoms.length := by
  by_cases hfew : p.atoms.length ≤ settings.limits.room
  · exact Or.inl ((decision_fits_eq_true_iff h).mpr ⟨hfew, hcut⟩)
  · have hmany : settings.limits.room < p.atoms.length := Nat.not_le.mp hfew
    exact Or.inr ⟨(decision_fits_eq_error_iff h).mpr
      ⟨rfl, hmany, hcut.begins_take settings.limits.room⟩, hmany⟩

/-- Where an exchange answers and the text can be cut, there are few atoms. -/
theorem length_atoms_le_of_cuttable (h : parse settings.limits source = .ok p) {text : String}
    {b : Bool} (hb : decision settings (fits source text) = .ok b)
    (hcut : Cuttable p.shape text.toList) : p.atoms.length ≤ settings.limits.room := by
  rcases decision_fits_of_cuttable h hcut with hanswer | ⟨herror, -⟩
  · exact ((decision_fits_eq_true_iff h).mp hanswer).1
  · rw [hb] at herror
    cases herror

/-- With few atoms an exchange always answers. -/
theorem decision_fits_of_few (h : parse settings.limits source = .ok p)
    (hfew : p.atoms.length ≤ settings.limits.room) (text : String) :
    decision settings (fits source text) = .ok (p.fits text) := by
  rw [decision_fits_of_parse h, tooDeep_eq_false hfew]
  rfl

namespace Pattern

variable {f : Fit} {text : String}

/-- A text that an exchange answers fits is one that the pattern fits, and there are few atoms. -/
theorem exists_fit?_of_decision (h : parse settings.limits source = .ok p)
    (hfits : decision settings (Exchange.fits source text) = .ok true) :
    p.atoms.length ≤ settings.limits.room ∧ ∃ f, p.fit? text = some f := by
  obtain ⟨hfew, hcut⟩ := (decision_fits_eq_true_iff h).mp hfits
  exact ⟨hfew, Option.isSome_iff_exists.mp ((fits_iff_cuttable h).mpr hcut)⟩

/-- A text that fits a pattern of few atoms is written anew with its captures. -/
theorem decision_transform_of_fit? (h : parse settings.limits source = .ok p)
    (hfew : p.atoms.length ≤ settings.limits.room) (hf : p.fit? text = some f) (strict : Bool)
    (template : String) :
    decision settings (Exchange.transform strict text source template) =
      (render strict f.groups f.rest (some p.hasRest) template).mapError .template := by
  rw [Exchange.decision_transform, Exchange.decision_pattern, h]
  change fitTo p text settings.limits.room >>= Exchange.rendered source text template strict p = _
  rw [Exchange.fitTo_eq_ok hfew, hf]
  rfl

/-- A text that fits a pattern of too many atoms is not written anew for lack of room. -/
theorem decision_of_tooDeep (h : parse settings.limits source = .ok p)
    (hmany : settings.limits.room < p.atoms.length) (hf : p.fit? text = some f) :
    decision settings (Exchange.fits source text) = .error .tooDeep ∧
      ∀ strict template,
        decision settings (Exchange.transform strict text source template) = .error .tooDeep := by
  have hfits : p.fits text = true := by rw [fits, hf]; rfl
  have hcut := (fits_iff_cuttable h).mp hfits
  have hdeep := (tooDeep_iff_begins h).mpr ⟨hmany, hcut.begins_take settings.limits.room⟩
  refine ⟨by rw [decision_fits_of_parse h, if_pos hdeep], fun strict template => ?_⟩
  rw [Exchange.decision_transform, Exchange.decision_pattern, h]
  change fitTo p text settings.limits.room >>= Exchange.rendered source text template strict p = _
  rw [fitTo, if_pos hdeep]
  rfl

end Pattern

end CallRouting

import CallRouting.Pattern.Fit
import CallRouting.Proofs.Choice
import Mathlib.Data.List.Lex

/-!
# Dividing a text among pieces

A text fits a sequence of pieces if it can be divided among them: each piece gets a *share*, that
is the characters next in line and the choice they stand for, and nothing is left over (`Divides`).
Of all divisions the wanted one (`IsFirst`) comes first when the choices are compared from left to
right. The plain search (`search`) finds it whenever there is a division at all (`search_cases`).

The piece that takes all that is left never gives anything back, so this holds only where it comes
last (`RestLast`), which is where the reader puts it.
-/

namespace CallRouting.Pattern

/-! ## Divisions -/

/-- What a piece gets of a text: the choice made at it and the characters taken. -/
structure Share where
  choice : Choice
  taken : List Char
  deriving DecidableEq, Repr

/-- Whether shares, one for each piece in order, divide a text with nothing left over. -/
structure Divides (pieces : List Piece) (shares : List Share) (cs : List Char) : Prop where
  chosen : List.Forall₂ (fun piece share => piece.Chooses share.choice share.taken) pieces shares
  covered : (shares.map Share.taken).flatten = cs

/-- Whether segments, one for each piece in order, cut a text with nothing left over. -/
structure Cuts (pieces : List Piece) (segments : List (List Char)) (cs : List Char) : Prop where
  admitted : List.Forall₂ Piece.Admits pieces segments
  covered : segments.flatten = cs

/-- A text can be cut into segments exactly if it can be divided into shares. -/
theorem exists_cuts_iff {pieces : List Piece} {cs : List Char} :
    (∃ segments, Cuts pieces segments cs) ↔ ∃ shares, Divides pieces shares cs := by
  constructor
  · rintro ⟨segments, hadm, hcov⟩
    induction hadm generalizing cs with
    | nil => exact ⟨[], .nil, hcov⟩
    | @cons piece segment pieces segments hadm _ ih =>
      obtain ⟨choice, hch⟩ := Piece.admits_iff.mp hadm
      obtain ⟨shares, hdiv⟩ := ih rfl
      refine ⟨⟨choice, segment⟩ :: shares, .cons hch hdiv.chosen, ?_⟩
      rw [List.map_cons, List.flatten_cons, hdiv.covered, ← hcov, List.flatten_cons]
  · rintro ⟨shares, hch, hcov⟩
    refine ⟨shares.map Share.taken, ?_, hcov⟩
    rw [List.forall₂_map_right_iff]
    exact hch.imp fun _ _ h => Piece.admits_iff.mpr ⟨_, h⟩

/-- Whether a division comes before every other one, or equals it, when the choices are compared
from left to right. -/
structure IsFirst (pieces : List Piece) (shares : List Share) (cs : List Char) : Prop where
  divides : Divides pieces shares cs
  first : ∀ others, Divides pieces others cs →
    shares.map Share.choice = others.map Share.choice ∨
      List.Lex Choice.Before (shares.map Share.choice) (others.map Share.choice)

/-- Whether the piece that takes all that is left stands nowhere but in the last place. -/
def RestLast (pieces : List Piece) : Prop := .rest ∉ pieces.dropLast

/-- It stands nowhere else behind the first piece either. -/
theorem RestLast.tail {piece : Piece} {rest : List Piece} (h : RestLast (piece :: rest)) :
    RestLast rest := by
  cases rest with
  | nil => exact List.not_mem_nil
  | cons next rest => exact fun hmem => h (List.mem_cons_of_mem _ hmem)

/-- The piece that takes all that is left stands nowhere else behind the first pieces either. -/
theorem RestLast.of_append {ps qs : List Piece} (h : RestLast (ps ++ qs)) :
    RestLast qs := by
  induction ps with
  | nil => exact h
  | cons piece ps ih => exact ih h.tail

/-- Nothing follows the piece that takes all that is left. -/
theorem RestLast.eq_nil {rest : List Piece} (h : RestLast (.rest :: rest)) : rest = [] := by
  cases rest with
  | nil => rfl
  | cons next rest => exact absurd List.mem_cons_self h

/-- The first share of a division is an option at the first piece, and the other shares divide
what it leaves. -/
theorem Divides.head_option {piece : Piece} {rest : List Piece} {share : Share}
    {shares : List Share} {cs : List Char} (h : Divides (piece :: rest) (share :: shares) cs)
    (hlast : RestLast (piece :: rest)) :
    (share.choice, ⟨share.taken.length, cs.drop share.taken.length⟩) ∈ piece.options cs ∧
      Divides rest shares (cs.drop share.taken.length) := by
  obtain ⟨hch, hcov⟩ := h
  obtain ⟨hhead, htail⟩ := List.forall₂_cons.mp hch
  rw [List.map_cons, List.flatten_cons] at hcov
  subst hcov
  rw [List.drop_left]
  refine ⟨Piece.mem_options_iff.mpr ⟨by simp, by simp, by simpa using hhead, ?_⟩, htail, rfl⟩
  rintro rfl
  obtain rfl := hlast.eq_nil
  obtain rfl := List.forall₂_nil_left_iff.mp htail
  simp

/-- An option at the first piece and a division of what it leaves make a division. -/
theorem Divides.of_option {piece : Piece} {rest : List Piece} {choice : Choice} {t : Take}
    {shares : List Share} {cs : List Char} (ht : (choice, t) ∈ piece.options cs)
    (h : Divides rest shares t.left) :
    Divides (piece :: rest) (⟨choice, cs.take t.count⟩ :: shares) cs := by
  obtain ⟨-, hleft, hch, -⟩ := Piece.mem_options_iff.mp ht
  refine ⟨.cons hch h.chosen, ?_⟩
  rw [List.map_cons, List.flatten_cons, h.covered, hleft, List.take_append_drop]

/-- Two divisions with the same choices are the same. -/
theorem Divides.eq_of_choices {pieces : List Piece} {shares others : List Share} {cs : List Char}
    (hlast : RestLast pieces) (h : Divides pieces shares cs) (h' : Divides pieces others cs)
    (heq : shares.map Share.choice = others.map Share.choice) : shares = others := by
  induction pieces generalizing shares others cs with
  | nil =>
    rw [List.forall₂_nil_left_iff.mp h.chosen, List.forall₂_nil_left_iff.mp h'.chosen]
  | cons piece rest ih =>
    obtain ⟨share, shares, -, -, rfl⟩ := List.forall₂_cons_left_iff.mp h.chosen
    obtain ⟨other, others, -, -, rfl⟩ := List.forall₂_cons_left_iff.mp h'.chosen
    rw [List.map_cons, List.map_cons, List.cons.injEq] at heq
    obtain ⟨hopt, hdiv⟩ := h.head_option hlast
    obtain ⟨hopt', hdiv'⟩ := h'.head_option hlast
    rw [← heq.1] at hopt'
    have htake := Piece.eq_of_mem_options hopt hopt'
    rw [Take.mk.injEq] at htake
    rw [← htake.2] at hdiv'
    have hshare : share = other := by
      have hcov := h.covered
      have hcov' := h'.covered
      rw [List.map_cons, List.flatten_cons] at hcov hcov'
      have htaken := (List.append_inj (hcov.trans hcov'.symm) htake.1).1
      cases share
      cases other
      exact congrArg₂ Share.mk heq.1 htaken
    rw [hshare, ih hlast.tail hdiv hdiv' heq.2]

/-- There is only one first division. -/
theorem IsFirst.unique {pieces : List Piece} {shares others : List Share} {cs : List Char}
    (hlast : RestLast pieces) (h : IsFirst pieces shares cs) (h' : IsFirst pieces others cs) :
    shares = others := by
  refine h.divides.eq_of_choices hlast h'.divides ?_
  rcases h.first others h'.divides with heq | hlt
  · exact heq
  rcases h'.first shares h.divides with heq | hgt
  · exact heq.symm
  · exact absurd hgt (asymm hlt)

/-! ## The plain search -/

/-- The search at a piece goes through the options in order. -/
theorem search_cons (piece : Piece) (rest : List Piece) (cs : List Char) :
    search (piece :: rest) cs =
      (piece.options cs).findSome? fun o => (search rest o.2.left).map (o.2.count :: ·) := by
  rw [search, ← Piece.map_snd_options, List.findSome?_map]
  rfl

/-- **The plain search finds the first division, or there is none.** -/
theorem search_cases {pieces : List Piece} (hlast : RestLast pieces) (cs : List Char) :
    (search pieces cs = none ∧ ∀ shares, ¬ Divides pieces shares cs) ∨
      ∃ shares, IsFirst pieces shares cs ∧
        search pieces cs = some (shares.map fun share => share.taken.length) := by
  induction pieces generalizing cs with
  | nil =>
    cases cs with
    | nil =>
      refine Or.inr ⟨[], ⟨⟨.nil, rfl⟩, fun others h => Or.inl ?_⟩, rfl⟩
      rw [List.forall₂_nil_left_iff.mp h.chosen]
    | cons c cs =>
      refine Or.inl ⟨rfl, fun shares h => ?_⟩
      have hcov := h.covered
      rw [List.forall₂_nil_left_iff.mp h.chosen] at hcov
      cases hcov
  | cons piece rest ih =>
    have hrest := hlast.tail
    rw [search_cons]
    cases hfind : (piece.options cs).findSome? fun o =>
        (search rest o.2.left).map (o.2.count :: ·) with
    | none =>
      -- every option fails, and each division would start with one of them
      refine Or.inl ⟨rfl, fun shares h => ?_⟩
      cases h.chosen with
      | @cons _ share _ shares hhead htail =>
        obtain ⟨hopt, hdiv⟩ := h.head_option hlast
        have hnone := List.findSome?_eq_none_iff.mp hfind _ hopt
        rw [Option.map_eq_none_iff] at hnone
        rcases ih hrest (cs.drop share.taken.length) with ⟨-, hno⟩ | ⟨_, -, hsome⟩
        · exact hno _ hdiv
        · rw [hnone] at hsome
          cases hsome
    | some counts =>
      obtain ⟨before, ⟨choice, t⟩, after, hsplit, hfound, hfail⟩ :=
        List.findSome?_eq_some_iff.mp hfind
      obtain ⟨counts', hcounts', rfl⟩ := Option.map_eq_some_iff.mp hfound
      have hopt : (choice, t) ∈ piece.options cs := by rw [hsplit]; simp
      obtain ⟨hlen, hleft, -, -⟩ := Piece.mem_options_iff.mp hopt
      rcases ih hrest t.left with ⟨hnone, -⟩ | ⟨shares, hfirst, hsome⟩
      · rw [hnone] at hcounts'
        cases hcounts'
      refine Or.inr ⟨⟨choice, cs.take t.count⟩ :: shares, ⟨.of_option hopt hfirst.divides, ?_⟩, ?_⟩
      · intro others hothers
        cases hothers.chosen with
        | @cons _ share _ others' hhead htail =>
          obtain ⟨hopt', hdiv'⟩ := hothers.head_option hlast
          -- where the first option of the other division stands decides the comparison
          have hsorted := piece.pairwise_options cs
          rw [hsplit] at hopt' hsorted
          rcases List.mem_append.mp hopt' with hmem | hmem
          · have hnone := Option.map_eq_none_iff.mp (hfail _ hmem)
            rcases ih hrest (cs.drop share.taken.length) with ⟨-, hno⟩ | ⟨_, -, hsome'⟩
            · exact absurd hdiv' (hno _)
            · rw [hnone] at hsome'
              cases hsome'
          rcases List.mem_cons.mp hmem with heq | hmem
          · cases heq
            rcases hfirst.first others' hdiv' with h | h
            · exact Or.inl (by simp [h])
            · exact Or.inr (.cons h)
          · have hbefore := (List.pairwise_cons.mp (List.pairwise_append.mp hsorted).2.1).1 _ hmem
            exact Or.inr (.rel hbefore)
      · rw [hsome] at hcounts'
        cases hcounts'
        simp [hlen]

end CallRouting.Pattern

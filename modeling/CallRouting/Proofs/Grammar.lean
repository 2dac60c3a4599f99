import CallRouting.Pattern.Store
import CallRouting.Proofs.Phrase

/-!
# The reader accepts exactly the grammar

* **States of the reader** (`Progress.behind`, `Progress.within`): where the reader stands behind a
  sequence of phrases, and where it stands inside a group that opens behind them.
* **One character** (`Reached.read`): a reader that stands in one of these states and reads on
  stands in one of them again; hence every run ends in one (`reached_of_run`).
* **One phrase** (`run_phrase`): the text of a well-formed phrase brings the reader from behind a
  sequence to behind the sequence with the phrase added.
* **The whole text** (`scan_eq_ok_iff`, `parse_eq_ok_iff`): a text is read exactly if it is the text
  of well-formed phrases within the limits, and then the atoms are those of the phrases.
-/

namespace CallRouting.Pattern

/-! ## Sequences of phrases that the reader lets pass -/

/-- How many phrases have a quantifier behind them. -/
def quantifiedCount (us : List Phrase) : Nat := us.countP Phrase.isQuantified

@[simp] theorem quantifiedCount_append (us vs : List Phrase) :
    quantifiedCount (us ++ vs) = quantifiedCount us + quantifiedCount vs := List.countP_append ..

/-- All phrases are well formed, and the quantifiers keep the limit. The limit is asked for only
where there is a quantifier. -/
structure Admissible (maxQuantifiers : Int) (us : List Phrase) : Prop where
  wellFormed : ∀ u ∈ us, u.WellFormed
  within : quantifiedCount us = 0 ∨ (quantifiedCount us : Int) ≤ maxQuantifiers

namespace Admissible

variable {m : Int} {us : List Phrase} {u : Phrase}

/-- The empty sequence passes. -/
theorem nil : Admissible m [] := ⟨by simp, Or.inl rfl⟩

/-- The beginning of a sequence that passes does too. -/
theorem of_append {vs : List Phrase} (h : Admissible m (us ++ vs)) : Admissible m us := by
  refine ⟨fun u hu => h.wellFormed u (List.mem_append_left _ hu), ?_⟩
  rcases h.within with h0 | hm
  · left
    rw [quantifiedCount_append] at h0
    omega
  · right
    rw [quantifiedCount_append] at hm
    omega

/-- A phrase without a quantifier can be added. -/
theorem concat (h : Admissible m us) (hu : u.WellFormed) (hq : u.isQuantified = false) :
    Admissible m (us ++ [u]) := by
  have hcount : quantifiedCount (us ++ [u]) = quantifiedCount us := by
    simp [quantifiedCount, hq]
  refine ⟨?_, by rw [hcount]; exact h.within⟩
  intro v hv
  rcases List.mem_append.mp hv with hv | hv
  · exact h.wellFormed v hv
  · rw [List.mem_singleton.mp hv]
    exact hu

/-- A quantifier can be put behind the last phrase if the limit leaves room for it. -/
theorem quantify {c : Char} (h : Admissible m (us ++ [.plain c none])) (q : Quantifier)
    (hm : (quantifiedCount us : Int) + 1 ≤ m) : Admissible m (us ++ [.plain c (some q)]) := by
  refine ⟨?_, Or.inr ?_⟩
  · intro v hv
    rcases List.mem_append.mp hv with hv | hv
    · exact h.wellFormed v (List.mem_append_left _ hv)
    · rw [List.mem_singleton.mp hv]
      exact h.wellFormed (.plain c none) (by simp)
  · have hone : quantifiedCount [.plain c (some q)] = 1 := rfl
    rw [quantifiedCount_append, hone]
    omega

end Admissible

/-! ## The inside of a group -/

/-- A group after some more characters, the first of which stands at a position. -/
def OpenChoice.readOn : OpenChoice → Nat → List Char → OpenChoice
  | choice, _, [] => choice
  | choice, n, c :: rest => (choice.extend n c).readOn (n + 1) rest

/-- The alternatives of a group as they stand so far. -/
def OpenChoice.alternatives (choice : OpenChoice) : List (List Slot) :=
  (choice.current.reverse :: choice.complete).reverse

namespace OpenChoice

/-- Two stretches of characters, one after the other. -/
theorem readOn_append (choice : OpenChoice) (n : Nat) (a b : List Char) :
    choice.readOn n (a ++ b) = (choice.readOn n a).readOn (n + a.length) b := by
  induction a generalizing choice n with
  | nil => rfl
  | cons c rest ih => simp only [List.cons_append, readOn, ih, List.length_cons]; congr 1; omega

/-- The opening bracket stays where it is. -/
theorem start_readOn (choice : OpenChoice) (n : Nat) (a : List Char) :
    (choice.readOn n a).start = choice.start := by
  induction a generalizing choice n with
  | nil => rfl
  | cons c rest ih =>
    rw [readOn, ih]
    unfold extend
    split_ifs <;> rfl

/-- A bracket inside the group is noted exactly if one has come. -/
theorem nested_readOn_eq_none_iff (choice : OpenChoice) (n : Nat) (a : List Char) :
    (choice.readOn n a).nested = none ↔ choice.nested = none ∧ '[' ∉ a := by
  induction a generalizing choice n with
  | nil => simp [readOn]
  | cons c rest ih =>
    have hstep : (choice.extend n c).nested = none ↔ choice.nested = none ∧ c ≠ '[' := by
      unfold extend
      split_ifs with hbar hparen hbracket
      · simp [hbar]
      · rcases hparen with rfl | rfl <;> simp
      · simp [hbracket]
      · simp [hbracket]
    rw [readOn, ih, hstep, List.mem_cons, not_or, and_assoc]
    exact and_congr_right fun _ => and_congr_left fun _ => ne_comm

/-- The characters of an alternative become its classes. -/
theorem readOn_alternative (choice : OpenChoice) (n : Nat) (a : List Char)
    (h : ∀ c ∈ a, c ≠ '[' ∧ c ≠ '|') :
    choice.readOn n a = { choice with current := (slotsAt n a).reverse ++ choice.current } := by
  induction a generalizing choice n with
  | nil => simp [readOn, slotsAt]
  | cons c rest ih =>
    obtain ⟨hc, hrest⟩ := List.forall_mem_cons.mp h
    rw [readOn, ih _ _ hrest]
    by_cases hp : c = '(' ∨ c = ')'
    · simp [extend, slotsAt, hc.2, hp]
    · simp [extend, slotsAt, hc.1, hc.2, hp]

/-- The characters of several alternatives with bars between them become the alternatives. -/
theorem alternatives_readOn (choice : OpenChoice) (n : Nat) (a : List Char)
    (rest : List (List Char)) (h : ∀ b ∈ a :: rest, ∀ c ∈ b, c ≠ '[' ∧ c ≠ '|') :
    (choice.readOn n (['|'].intercalate (a :: rest))).alternatives =
      choice.complete.reverse ++
        (choice.current.reverse ++ slotsAt n a) :: alternativesAt (n + a.length + 1) rest := by
  induction rest generalizing choice n a with
  | nil =>
    rw [List.intercalate_singleton, readOn_alternative _ _ _ (h a (by simp))]
    simp [alternatives, alternativesAt]
  | cons b rest ih =>
    obtain ⟨ha, hrest⟩ := List.forall_mem_cons.mp h
    rw [List.intercalate_cons_cons, readOn_append, readOn_append, readOn_alternative _ _ _ ha,
      readOn, readOn, ih _ _ _ hrest]
    simp [extend, alternativesAt, Nat.add_assoc]

end OpenChoice

/-- A character of an alternative is a character of the body of the group. -/
theorem mem_intercalate_of_mem {a : List Char} {alternatives : List (List Char)} {c : Char}
    (ha : a ∈ alternatives) (hc : c ∈ a) : c ∈ ['|'].intercalate alternatives := by
  induction alternatives with
  | nil => cases ha
  | cons b rest ih =>
    cases rest with
    | nil =>
      rw [List.intercalate_singleton, ← List.mem_singleton.mp ha]
      exact hc
    | cons b' rest =>
      rw [List.intercalate_cons_cons]
      rcases List.mem_cons.mp ha with rfl | ha
      · simp [hc]
      · exact List.mem_append_right _ (ih ha)

/-- A character of the body of a group is a bar or one of an alternative. -/
theorem mem_of_mem_intercalate {alternatives : List (List Char)} {c : Char}
    (h : c ∈ ['|'].intercalate alternatives) : c = '|' ∨ ∃ a ∈ alternatives, c ∈ a := by
  induction alternatives with
  | nil => cases h
  | cons b rest ih =>
    cases rest with
    | nil =>
      rw [List.intercalate_singleton] at h
      exact Or.inr ⟨b, by simp, h⟩
    | cons b' rest =>
      rw [List.intercalate_cons_cons, List.append_assoc] at h
      rcases List.mem_append.mp h with h | h
      · exact Or.inr ⟨b, by simp, h⟩
      · rcases List.mem_append.mp h with h | h
        · exact Or.inl (List.mem_singleton.mp h)
        · rcases ih h with h | ⟨a, ha, hc⟩
          · exact Or.inl h
          · exact Or.inr ⟨a, List.mem_cons_of_mem _ ha, hc⟩

/-- Every text falls into alternatives at its bars. -/
theorem exists_alternatives (body : List Char) :
    ∃ a rest, body = ['|'].intercalate (a :: rest) ∧ ∀ b ∈ a :: rest, '|' ∉ b := by
  induction body with
  | nil => exact ⟨[], [], by simp, by simp⟩
  | cons c body ih =>
    obtain ⟨a, rest, rfl, hbar⟩ := ih
    by_cases hc : c = '|'
    · exact ⟨[], a :: rest, by simp [hc], by simpa using hbar⟩
    · refine ⟨c :: a, rest, by simp, ?_⟩
      simp only [List.forall_mem_cons] at hbar ⊢
      exact ⟨by simp [Ne.symm hc, hbar.1], hbar.2⟩

namespace OpenChoice

/-- What a group has to have for its closing bracket to be accepted. -/
theorem close_eq_ok_iff {choice : OpenChoice} {alternatives : List (List Slot)} :
    choice.close = .ok alternatives ↔
      choice.nested = none ∧ 2 ≤ choice.alternatives.length ∧
        choice.alternatives.any List.isEmpty = false ∧ alternatives = choice.alternatives := by
  unfold close
  cases hn : choice.nested with
  | some p => simp
  | none =>
    change (if choice.alternatives.length < 2 then Except.error _
      else if choice.alternatives.any List.isEmpty then Except.error _
      else Except.ok choice.alternatives) = _ ↔ _
    split_ifs with hlen hany
    · simp only [true_and, false_iff, not_and]
      intro h
      omega
    · simp [hany]
    · simp only [Except.ok.injEq, true_and]
      refine ⟨fun h => ⟨by omega, Bool.eq_false_iff.mpr hany, h.symm⟩, fun h => h.2.2.symm⟩

end OpenChoice

/-- A group that opens at a position. -/
def OpenChoice.fresh (start : Nat) : OpenChoice := ⟨start, [], [], none⟩

/-- The body of a group closes exactly if it is that of a well-formed phrase. -/
theorem close_fresh_eq_ok_iff {start : Nat} {body : List Char} {alternatives : List (List Slot)}
    (hbody : ']' ∉ body) :
    ((OpenChoice.fresh start).readOn (start + 1) body).close = .ok alternatives ↔
      ∃ texts, (Phrase.group texts).WellFormed ∧ body = ['|'].intercalate texts ∧
        alternatives = alternativesAt (start + 1) texts := by
  rw [OpenChoice.close_eq_ok_iff, OpenChoice.nested_readOn_eq_none_iff]
  constructor
  · rintro ⟨⟨-, hopen⟩, hlen, hfilled, rfl⟩
    obtain ⟨a, rest, rfl, hbar⟩ := exists_alternatives body
    have hplain : ∀ b ∈ a :: rest, ∀ c ∈ b, c ≠ '[' ∧ c ≠ '|' := by
      intro b hb c hc
      refine ⟨?_, ?_⟩
      · rintro rfl
        exact hopen (mem_intercalate_of_mem hb hc)
      · rintro rfl
        exact hbar b hb hc
    rw [OpenChoice.alternatives_readOn _ _ _ _ hplain] at hlen hfilled ⊢
    have hall : (OpenChoice.fresh start).complete.reverse ++
        ((OpenChoice.fresh start).current.reverse ++ slotsAt (start + 1) a) ::
          alternativesAt (start + 1 + a.length + 1) rest = alternativesAt (start + 1) (a :: rest) :=
      rfl
    rw [hall] at hlen hfilled ⊢
    rw [length_alternativesAt] at hlen
    rw [any_isEmpty_alternativesAt] at hfilled
    refine ⟨a :: rest, ⟨hlen, fun b hb => ⟨fun c hc => ?_, hfilled b hb⟩⟩, rfl, rfl⟩
    refine ⟨(hplain b hb c hc).1, ?_, (hplain b hb c hc).2⟩
    rintro rfl
    exact hbody (mem_intercalate_of_mem hb hc)
  · rintro ⟨texts, ⟨hlen, halt⟩, rfl, rfl⟩
    obtain ⟨a, rest, rfl⟩ : ∃ a rest, texts = a :: rest := by
      cases texts with
      | nil => simp at hlen
      | cons a rest => exact ⟨a, rest, rfl⟩
    have hplain : ∀ b ∈ a :: rest, ∀ c ∈ b, c ≠ '[' ∧ c ≠ '|' := fun b hb c hc =>
      ⟨((halt b hb).unreserved c hc).1, ((halt b hb).unreserved c hc).2.2⟩
    have hopen : '[' ∉ ['|'].intercalate (a :: rest) := by
      intro hmem
      rcases mem_of_mem_intercalate hmem with h | ⟨b, hb, hc⟩
      · cases h
      · exact (hplain b hb _ hc).1 rfl
    have hall : ((OpenChoice.fresh start).readOn (start + 1)
        (['|'].intercalate (a :: rest))).alternatives = alternativesAt (start + 1) (a :: rest) :=
      OpenChoice.alternatives_readOn _ _ _ _ hplain
    rw [hall]
    refine ⟨⟨rfl, hopen⟩, by simpa using hlen, ?_, rfl⟩
    exact any_isEmpty_alternativesAt.mpr fun b hb => (halt b hb).filled

/-! ## States of the reader -/

/-- The reader behind a sequence of phrases. -/
def Progress.behind (us : List Phrase) : Progress :=
  ⟨(textOf us).length, quantifiedCount us, (layout 0 us).reverse, none⟩

/-- The reader inside a group that opens behind a sequence of phrases and has a body so far. -/
def Progress.within (us : List Phrase) (body : List Char) : Progress :=
  { Progress.behind us with
    position := (textOf us).length + 1 + body.length
    opened := some ((OpenChoice.fresh (textOf us).length).readOn ((textOf us).length + 1) body) }

/-- The states that a text can bring the reader to: behind a sequence of phrases that passes, or
inside a group behind one. -/
inductive Reached (m : Int) : List Char → Progress → Prop
  | behind {us : List Phrase} (h : Admissible m us) : Reached m (textOf us) (.behind us)
  | within {us : List Phrase} {body : List Char} (h : Admissible m us) (hbody : ']' ∉ body) :
      Reached m (textOf us ++ '[' :: body) (.within us body)

/-- The state behind one more phrase. -/
theorem behind_concat (us : List Phrase) (u : Phrase) :
    Progress.behind (us ++ [u]) =
      ⟨(textOf us).length + u.text.length, quantifiedCount us + quantifiedCount [u],
        u.atom (textOf us).length :: (layout 0 us).reverse, none⟩ := by
  simp [Progress.behind, layout_append, layout]

/-! ## One character -/

/-- A quantifier is accepted behind a character that has none, and only there. -/
theorem quantifyLast_eq_ok_iff {q : Quantifier} {n : Nat} {us : List Phrase} {atoms : List Atom} :
    quantifyLast q n (layout 0 us).reverse = .ok atoms ↔
      ∃ vs c, us = vs ++ [.plain c none] ∧
        atoms = (layout 0 (vs ++ [.plain c (some q)])).reverse := by
  rcases List.eq_nil_or_concat us with rfl | ⟨vs, u, rfl⟩
  · simp [layout, quantifyLast]
  · have hrev : (layout 0 (vs ++ [u])).reverse =
        u.atom (textOf vs).length :: (layout 0 vs).reverse := by
      simp [layout_append, layout]
    rw [List.concat_eq_append, hrev]
    cases u with
    | plain c quantifier =>
      cases quantifier with
      | none =>
        constructor
        · intro h
          simp only [quantifyLast, Phrase.atom, Phrase.piece, Except.ok.injEq] at h
          exact ⟨vs, c, rfl, by simp [← h, layout_append, layout, Phrase.atom, Phrase.piece]⟩
        · rintro ⟨vs', c', heq, rfl⟩
          obtain ⟨rfl, hlast⟩ := List.append_inj' heq rfl
          cases hlast
          simp [quantifyLast, layout_append, layout, Phrase.atom, Phrase.piece]
      | some q' =>
        simp only [quantifyLast, Phrase.atom, Phrase.piece, reduceCtorEq, false_iff, not_exists,
          not_and]
        intro vs' c' heq
        cases (List.append_inj' heq rfl).2
    | group alternatives =>
      simp only [quantifyLast, Phrase.atom, Phrase.piece, reduceCtorEq, false_iff, not_exists,
        not_and]
      intro vs' c' heq
      cases (List.append_inj' heq rfl).2

/-- A character that is neither a quantifier nor a bracket nor a bar is not reserved. -/
theorem not_mem_reserved {c : Char} (hq : Quantifier.ofToken? c = none) (ho : c ≠ '[')
    (hc : c ≠ ']') (hb : c ≠ '|') : c ∉ reserved := by
  intro h
  simp only [reserved, List.mem_cons, List.not_mem_nil, or_false] at h
  rcases h with rfl | rfl | rfl | h
  · cases hq
  · cases hq
  · cases hq
  · rcases h with h | h | h <;> contradiction

/-- What a character can do behind a sequence of phrases: quantify the last one, open a group, or
be a phrase of its own. -/
theorem read_behind_cases {m : Int} {us : List Phrase} {c : Char} {t : Progress}
    (h : (Progress.behind us).read m c = .ok t) :
    (∃ vs d q, us = vs ++ [.plain d none] ∧ c = q.token ∧ (quantifiedCount vs : Int) + 1 ≤ m ∧
      t = .behind (vs ++ [.plain d (some q)])) ∨
    (c = '[' ∧ t = .within us []) ∨
    ((Phrase.plain c none).WellFormed ∧ t = .behind (us ++ [.plain c none])) := by
  change (Progress.behind us).readOutside m c = .ok t at h
  unfold Progress.readOutside at h
  cases hq : Quantifier.ofToken? c with
  | some q =>
    simp only [hq, bind, Except.bind] at h
    cases hlast : quantifyLast q (Progress.behind us).position (Progress.behind us).atoms with
    | error e => simp [hlast] at h
    | ok atoms =>
      obtain ⟨vs, d, rfl, rfl⟩ := quantifyLast_eq_ok_iff.mp hlast
      have hcount : quantifiedCount (vs ++ [.plain d none]) = quantifiedCount vs := by
        simp [quantifiedCount, Phrase.isQuantified]
      rw [hlast] at h
      simp only [Progress.behind, hcount] at h
      by_cases hm : m < (quantifiedCount vs : Int) + 1
      · rw [if_pos hm] at h
        cases h
      · rw [if_neg hm] at h
        left
        refine ⟨vs, d, q, rfl, Quantifier.ofToken?_eq_some_iff.mp hq, by omega, ?_⟩
        cases h
        simp [Progress.behind, Phrase.text, quantifiedCount, Phrase.isQuantified, Nat.add_assoc]
  | none =>
    simp only [hq] at h
    by_cases ho : c = '['
    · rw [if_pos ho] at h
      cases h
      exact Or.inr (Or.inl ⟨ho, rfl⟩)
    rw [if_neg ho] at h
    by_cases hc : c = ']'
    · rw [if_pos hc] at h
      cases h
    rw [if_neg hc] at h
    by_cases hb : c = '|'
    · rw [if_pos hb] at h
      cases h
    rw [if_neg hb] at h
    cases h
    refine Or.inr (Or.inr ⟨not_mem_reserved hq ho hc hb, ?_⟩)
    rw [behind_concat]
    simp [Progress.behind, Phrase.text, Phrase.atom, Phrase.piece,
      quantifiedCount, Phrase.isQuantified]

/-- What a character can do inside a group: close it, if the body is in order, or add to it. -/
theorem read_within_cases {m : Int} {us : List Phrase} {body : List Char} {c : Char} {t : Progress}
    (hbody : ']' ∉ body) (h : (Progress.within us body).read m c = .ok t) :
    (∃ texts, c = ']' ∧ (Phrase.group texts).WellFormed ∧ body = ['|'].intercalate texts ∧
      t = .behind (us ++ [.group texts])) ∨
    (c ≠ ']' ∧ t = .within us (body ++ [c])) := by
  change (Progress.within us body).readInside
    ((OpenChoice.fresh (textOf us).length).readOn ((textOf us).length + 1) body) c = .ok t at h
  unfold Progress.readInside at h
  split_ifs at h with hc
  · left
    simp only [bind, Except.bind] at h
    split at h
    · cases h
    · rename_i alternatives hclose
      obtain ⟨texts, hw, rfl, rfl⟩ := (close_fresh_eq_ok_iff hbody).mp hclose
      refine ⟨texts, hc, hw, rfl, ?_⟩
      cases h
      rw [behind_concat, OpenChoice.start_readOn]
      simp [Progress.within, Progress.behind, Phrase.text, Phrase.atom, Phrase.piece,
        OpenChoice.fresh, quantifiedCount, Phrase.isQuantified]
      omega
  · right
    cases h
    refine ⟨hc, ?_⟩
    simp [Progress.within, OpenChoice.readOn_append, OpenChoice.readOn, Nat.add_assoc]

/-- **One character.** A reader in a reached state that reads on is in a reached state again. -/
theorem Reached.read {m : Int} {cs : List Char} {s t : Progress} {c : Char} (hs : Reached m cs s)
    (h : s.read m c = .ok t) : Reached m (cs ++ [c]) t := by
  cases hs with
  | @behind us hus =>
    rcases read_behind_cases h with ⟨vs, d, q, rfl, rfl, hm, rfl⟩ | ⟨rfl, rfl⟩ | ⟨hw, rfl⟩
    · have htext : textOf (vs ++ [.plain d none]) ++ [q.token] =
          textOf (vs ++ [.plain d (some q)]) := by
        simp [Phrase.text]
      rw [htext]
      exact .behind (hus.quantify q hm)
    · exact .within hus (List.not_mem_nil)
    · have htext : textOf us ++ [c] = textOf (us ++ [.plain c none]) := by
        simp [Phrase.text]
      rw [htext]
      exact .behind (hus.concat hw rfl)
  | @within us body hus hbody =>
    rcases read_within_cases hbody h with ⟨texts, rfl, hw, rfl, rfl⟩ | ⟨hc, rfl⟩
    · have htext : textOf us ++ '[' :: ['|'].intercalate texts ++ [']'] =
          textOf (us ++ [.group texts]) := by
        simp [Phrase.text]
      rw [htext]
      exact .behind (hus.concat hw rfl)
    · have htext : textOf us ++ '[' :: body ++ [c] = textOf us ++ '[' :: (body ++ [c]) := by simp
      rw [htext]
      refine .within hus ?_
      rw [List.mem_append, not_or]
      exact ⟨hbody, by simpa using Ne.symm hc⟩

/-- **A whole run** ends in a reached state, if it ends in a state at all. -/
theorem reached_of_run {m : Int} {cs : List Char} {s : Progress}
    (h : cs.foldlM (Progress.read m) .start = .ok s) : Reached m cs s := by
  induction cs using List.reverseRecOn generalizing s with
  | nil =>
    cases h
    exact .behind .nil
  | append_singleton cs c ih =>
    simp only [List.foldlM_append, List.foldlM_cons, List.foldlM_nil, bind_pure] at h
    cases hcs : cs.foldlM (Progress.read m) .start with
    | error e =>
      rw [hcs] at h
      cases h
    | ok t =>
      rw [hcs] at h
      exact (ih hcs).read h

/-! ## One phrase -/

/-- The characters of a body are taken into the group. -/
theorem run_body {m : Int} {us : List Phrase} {body more : List Char} (h : ']' ∉ more) :
    more.foldlM (Progress.read m) (.within us body) = .ok (.within us (body ++ more)) := by
  induction more generalizing body with
  | nil => simp [pure, Except.pure]
  | cons c more ih =>
    rw [List.mem_cons, not_or] at h
    have hc : (Progress.within us body).read m c = .ok (.within us (body ++ [c])) := by
      change (Progress.within us body).readInside _ c = _
      unfold Progress.readInside
      rw [if_neg (Ne.symm h.1)]
      simp [pure, Except.pure, Progress.within, OpenChoice.readOn_append, OpenChoice.readOn,
        Nat.add_assoc]
    rw [List.foldlM_cons, hc]
    have hrest : more.foldlM (Progress.read m) (.within us (body ++ [c])) =
        .ok (.within us (body ++ [c] ++ more)) := ih h.2
    rw [List.append_assoc] at hrest
    exact hrest

/-- A character that is not reserved is read as a phrase of its own. -/
theorem read_plain {m : Int} {us : List Phrase} {c : Char} (hc : c ∉ reserved) :
    (Progress.behind us).read m c = .ok (.behind (us ++ [.plain c none])) := by
  change (Progress.behind us).readOutside m c = _
  have hq : Quantifier.ofToken? c = none := by
    cases hq : Quantifier.ofToken? c with
    | none => rfl
    | some q =>
      rw [Quantifier.ofToken?_eq_some_iff.mp hq] at hc
      cases q <;> exact absurd (by decide) hc
  have ho : c ≠ '[' := fun h => hc (by rw [h]; decide)
  have hb : c ≠ ']' := fun h => hc (by rw [h]; decide)
  have hr : c ≠ '|' := fun h => hc (by rw [h]; decide)
  simp only [Progress.readOutside, hq, if_neg ho, if_neg hb, if_neg hr]
  rw [behind_concat]
  simp [pure, Except.pure, Progress.behind, Phrase.text, Phrase.atom, Phrase.piece,
    quantifiedCount, Phrase.isQuantified]

/-- A quantifier behind a character without one is read as belonging to it. -/
theorem read_quantifier {m : Int} {us : List Phrase} {c : Char} {q : Quantifier}
    (hm : (quantifiedCount us : Int) + 1 ≤ m) :
    (Progress.behind (us ++ [.plain c none])).read m q.token =
      .ok (.behind (us ++ [.plain c (some q)])) := by
  change (Progress.behind (us ++ [.plain c none])).readOutside m q.token = _
  have hlast : quantifyLast q (Progress.behind (us ++ [.plain c none])).position
      (Progress.behind (us ++ [.plain c none])).atoms =
      .ok (layout 0 (us ++ [.plain c (some q)])).reverse :=
    quantifyLast_eq_ok_iff.mpr ⟨us, c, rfl, rfl⟩
  have hcount : quantifiedCount (us ++ [.plain c none]) = quantifiedCount us := by
    simp [quantifiedCount, Phrase.isQuantified]
  have hroom : ¬ m < (quantifiedCount us : Int) + 1 := by omega
  simp only [Progress.readOutside, Quantifier.ofToken?_eq_some_iff.mpr rfl, hlast]
  simp only [bind, Except.bind, Progress.behind, hcount, if_neg hroom]
  simp [pure, Except.pure, Phrase.text, quantifiedCount, Phrase.isQuantified, Nat.add_assoc]

/-- The body of a well-formed group holds no closing bracket. -/
theorem not_mem_body {texts : List (List Char)} (h : (Phrase.group texts).WellFormed) :
    ']' ∉ ['|'].intercalate texts := by
  intro hmem
  rcases mem_of_mem_intercalate hmem with hbar | ⟨a, ha, hc⟩
  · cases hbar
  · exact ((h.2 a ha).unreserved _ hc).2.1 rfl

/-- The bracket behind the body of a well-formed group closes it. -/
theorem read_close {m : Int} {us : List Phrase} {texts : List (List Char)}
    (h : (Phrase.group texts).WellFormed) :
    (Progress.within us (['|'].intercalate texts)).read m ']' =
      .ok (.behind (us ++ [.group texts])) := by
  change (Progress.within us (['|'].intercalate texts)).readInside
    ((OpenChoice.fresh (textOf us).length).readOn ((textOf us).length + 1)
      (['|'].intercalate texts)) ']' = _
  have hclose : ((OpenChoice.fresh (textOf us).length).readOn ((textOf us).length + 1)
      (['|'].intercalate texts)).close = .ok (alternativesAt ((textOf us).length + 1) texts) :=
    (close_fresh_eq_ok_iff (not_mem_body h)).mpr ⟨texts, h, rfl, rfl⟩
  simp only [Progress.readInside, if_pos, hclose, bind, Except.bind, pure, Except.pure]
  rw [behind_concat, OpenChoice.start_readOn]
  simp [Progress.within, Progress.behind, Phrase.text, Phrase.atom, Phrase.piece,
    OpenChoice.fresh, quantifiedCount, Phrase.isQuantified]
  omega

/-- **One phrase.** The text of a well-formed phrase brings the reader behind that phrase. -/
theorem run_phrase {m : Int} {us : List Phrase} {u : Phrase} (h : Admissible m (us ++ [u])) :
    u.text.foldlM (Progress.read m) (.behind us) = .ok (.behind (us ++ [u])) := by
  have hu : u.WellFormed := h.wellFormed u (by simp)
  cases u with
  | plain c quantifier =>
    cases quantifier with
    | none =>
      simp only [Phrase.text, Option.map_none, Option.toList_none, List.foldlM_cons,
        List.foldlM_nil, bind_pure]
      exact read_plain hu
    | some q =>
      have hm : (quantifiedCount us : Int) + 1 ≤ m := by
        have hone : quantifiedCount [Phrase.plain c (some q)] = 1 := rfl
        have hwithin := h.within
        rw [quantifiedCount_append, hone] at hwithin
        omega
      simp only [Phrase.text, Option.map_some, Option.toList_some, List.foldlM_cons,
        List.foldlM_nil, bind_pure]
      rw [read_plain hu]
      exact read_quantifier hm
  | group texts =>
    have hrun : (['|'].intercalate texts).foldlM (Progress.read m) (.within us []) =
        .ok (.within us (['|'].intercalate texts)) := run_body (not_mem_body hu)
    simp only [Phrase.text, List.foldlM_cons, List.foldlM_append, List.foldlM_nil, bind_pure]
    change (['|'].intercalate texts).foldlM (Progress.read m) (.within us []) >>= _ = _
    rw [hrun]
    exact read_close (m := m) hu

/-- The text of a sequence that passes brings the reader behind the sequence. -/
theorem run_textOf {m : Int} {us : List Phrase} (h : Admissible m us) :
    (textOf us).foldlM (Progress.read m) .start = .ok (.behind us) := by
  induction us using List.reverseRecOn with
  | nil => rfl
  | append_singleton us u ih =>
    rw [textOf_append, List.foldlM_append, ih h.of_append, textOf_cons, textOf_nil,
      List.append_nil]
    exact run_phrase h

/-! ## The whole text -/

/-- The atoms of a whole sequence of phrases: an unquantified `Z` that comes last takes all that is
left. -/
def atomsOf (us : List Phrase) : List Atom := (markRest (layout 0 us).reverse).reverse

/-- A text is read exactly if it is that of a sequence of phrases that passes. -/
theorem scan_eq_ok_iff {m : Int} {cs : List Char} {atoms : List Atom} :
    scan m cs = .ok atoms ↔ ∃ us, Admissible m us ∧ textOf us = cs ∧ atoms = atomsOf us := by
  constructor
  · intro h
    unfold scan at h
    cases hrun : cs.foldlM (Progress.read m) .start with
    | error e =>
      rw [hrun] at h
      cases h
    | ok s =>
      rw [hrun] at h
      cases reached_of_run hrun with
      | @behind us hus =>
        cases h
        exact ⟨us, hus, rfl, rfl⟩
      | within hus hbody => cases h
  · rintro ⟨us, hus, rfl, rfl⟩
    rw [scan, run_textOf hus]
    rfl

/-- The pattern that belongs to a sequence of phrases. -/
def ofPhrases (source : String) (us : List Phrase) : Pattern :=
  ⟨source, (numberGroups none 0 (atomsOf us)).1, (numberGroups none 0 (atomsOf us)).2⟩

/-- What it takes for a text to be a pattern, and which pattern it is. -/
theorem parse_eq_ok_iff {limits : PatternLimits} {source : String} {p : Pattern} :
    parse limits source = .ok p ↔
      (source.toList.length : Int) ≤ limits.maxLength ∧
        ∃ us, us ≠ [] ∧ Admissible limits.maxQuantifiers us ∧ textOf us = source.toList ∧
          p = ofPhrases source us := by
  unfold parse
  by_cases hempty : source.toList.isEmpty = true
  · simp only [hempty, if_true, reduceCtorEq, false_iff, not_and, not_exists]
    intro _ us hne _ htext
    rw [List.isEmpty_iff.mp hempty, textOf_eq_nil_iff] at htext
    exact absurd htext hne
  by_cases hlong : limits.maxLength < (source.toList.length : Int)
  · simp only [hempty, hlong, if_true, Bool.false_eq_true, if_false, reduceCtorEq, false_iff,
      not_and]
    intro hle
    omega
  simp only [hempty, hlong, Bool.false_eq_true, if_false]
  cases hscan : scan limits.maxQuantifiers source.toList with
  | error e =>
    simp only [reduceCtorEq, false_iff, not_and, not_exists]
    rintro - us - hus htext -
    have := scan_eq_ok_iff.mpr ⟨us, hus, htext, rfl⟩
    rw [hscan] at this
    cases this
  | ok atoms =>
    obtain ⟨us, hus, htext, rfl⟩ := scan_eq_ok_iff.mp hscan
    have hne : us ≠ [] := by
      rintro rfl
      rw [← htext] at hempty
      exact hempty rfl
    constructor
    · intro h
      cases h
      exact ⟨by omega, us, hne, hus, htext, rfl⟩
    · rintro ⟨-, vs, -, hvs, htextv, rfl⟩
      have hatoms : atomsOf us = atomsOf vs := by
        have := scan_eq_ok_iff.mpr ⟨vs, hvs, htextv, rfl⟩
        rw [hscan] at this
        exact Except.ok.inj this
      simp only [ofPhrases, hatoms]

/-! ## The grammar -/

/-- Whether a text is a pattern under limits: it is short enough, and it is a sequence of at least
one phrase, all of them well formed and not too many of them quantified. -/
def Grammatical (limits : PatternLimits) (source : String) : Prop :=
  (source.length : Int) ≤ limits.maxLength ∧
    ∃ us, us ≠ [] ∧ (∀ u ∈ us, Phrase.WellFormed u) ∧ textOf us = source.toList ∧
      (quantifiedCount us : Int) ≤ limits.maxQuantifiers

/-- A text is read exactly if it is a pattern, where the limit of quantifiers makes sense. -/
theorem exists_parse_iff {limits : PatternLimits} {source : String}
    (h : 0 ≤ limits.maxQuantifiers) :
    (∃ p, parse limits source = .ok p) ↔ Grammatical limits source := by
  constructor
  · rintro ⟨p, hp⟩
    obtain ⟨hlen, us, hne, hus, htext, -⟩ := parse_eq_ok_iff.mp hp
    refine ⟨hlen, us, hne, hus.wellFormed, htext, ?_⟩
    rcases hus.within with h0 | hm
    · omega
    · exact hm
  · rintro ⟨hlen, us, hne, hus, htext, hm⟩
    exact ⟨_, parse_eq_ok_iff.mpr ⟨hlen, us, hne, ⟨hus, Or.inr hm⟩, htext, rfl⟩⟩

/-- A text that is refused is named in the report. -/
theorem source_of_parse_eq_error {limits : PatternLimits} {source : String} {e : PatternError}
    (h : parse limits source = .error e) : e.source = source := by
  unfold parse at h
  by_cases hempty : source.toList.isEmpty = true
  · simp only [hempty, if_true, Except.error.injEq] at h
    rw [← h]
  by_cases hlong : limits.maxLength < (source.toList.length : Int)
  · simp only [hempty, hlong, if_true, Bool.false_eq_true, if_false, Except.error.injEq] at h
    rw [← h]
  simp only [hempty, hlong, Bool.false_eq_true, if_false] at h
  cases hscan : scan limits.maxQuantifiers source.toList with
  | error fault =>
    rw [hscan] at h
    cases h
    rfl
  | ok atoms =>
    rw [hscan] at h
    cases h

/-- A store without patterns reads every text anew. -/
theorem fst_ask_blank (capacity : Nat) (limits : PatternLimits) (source : String) :
    ((PatternStore.blank capacity).ask limits source).1 = parse limits source := by
  have hfind : (PatternStore.blank capacity).find? source = none := rfl
  rw [PatternStore.ask, hfind]
  cases parse limits source <;> rfl

/-- **A store without patterns gives out a pattern exactly for the texts of the grammar**, and
reports every other text as malformed. -/
theorem ask_blank_accepts_grammar (capacity : Nat) (limits : PatternLimits) (source : String)
    (h : 0 ≤ limits.maxQuantifiers) :
    ((∃ p, ((PatternStore.blank capacity).ask limits source).1 = .ok p) ↔
        Grammatical limits source) ∧
      (¬ Grammatical limits source →
        ∃ e, ((PatternStore.blank capacity).ask limits source).1 = .error e ∧
          e.source = source) := by
  rw [fst_ask_blank]
  refine ⟨exists_parse_iff h, fun hno => ?_⟩
  cases hparse : parse limits source with
  | ok p => exact absurd ((exists_parse_iff h).mp ⟨p, hparse⟩) hno
  | error e => exact ⟨e, rfl, source_of_parse_eq_error hparse⟩

/-- A text with a quantifier, a group with a plus sign of its own and a digit class behind it. -/
theorem ask_blank_accepts_group :
    (0 : Int) ≤ 32 ∧
      ∃ p, ((PatternStore.blank 512).ask ⟨256, 32, 0⟩ "1?[5(5)|Z+]x").1 = .ok p :=
  ⟨by decide, (ask_blank_accepts_grammar 512 ⟨256, 32, 0⟩ "1?[5(5)|Z+]x" (by decide)).1.mpr
    ⟨by decide, [.plain '1' (some .optional), .group [['5', '(', '5', ')'], ['Z', '+']],
      .plain 'x' none], by decide, by decide, by decide, by decide⟩⟩

end CallRouting.Pattern

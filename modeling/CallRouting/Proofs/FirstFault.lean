import CallRouting.Proofs.Assembly

/-!
# Reports point at the first fault

A text that is no pattern is reported with the place of its fault. Up to there the text is in
order, and whatever follows cannot put it right.

* **Runs** (`exists_of_foldlM_eq_error`, `exists_run_of_parse`): a run fails at one character, and
  the reader comes to the same state before it under all limits. So a fault that has a position is
  one in every text that begins the same way (`deadEnd_of_read_eq_error`).
* **Faults** (`read_behind_eq_error`, `read_within_eq_error`): which faults a character can be
  behind phrases and inside a group. A group inside a group is a fault already when it opens, though it is
  reported when the outer one closes (`Progress.Stuck`).
* **Reports** (`Located`, `parse_error_at_first_fault`): where the fault of a report lies, for each
  kind of fault.
-/

namespace CallRouting.Pattern

/-! ## Runs -/

/-- A run succeeds if it takes the first character and goes on from there. -/
theorem foldlM_cons_eq_ok_iff {ε α σ : Type} {f : σ → α → Except ε σ} {s t : σ} {x : α}
    {xs : List α} :
    (x :: xs).foldlM f s = .ok t ↔ ∃ u, f s x = .ok u ∧ xs.foldlM f u = .ok t := by
  rw [List.foldlM_cons]
  cases hx : f s x with
  | error e =>
    constructor
    · intro h
      cases h
    · rintro ⟨u, hu, -⟩
      cases hu
  | ok u =>
    constructor
    · intro h
      exact ⟨u, rfl, h⟩
    · rintro ⟨v, hv, h⟩
      cases hv
      exact h

/-- A run that fails does so at one of the characters. -/
theorem exists_of_foldlM_eq_error {ε α σ : Type} {f : σ → α → Except ε σ} {s : σ} {xs : List α}
    {e : ε} (h : xs.foldlM f s = .error e) :
    ∃ before x after t, xs = before ++ x :: after ∧ before.foldlM f s = .ok t ∧
      f t x = .error e := by
  induction xs generalizing s with
  | nil => cases h
  | cons x xs ih =>
    rw [List.foldlM_cons] at h
    cases hx : f s x with
    | error e' =>
      rw [hx] at h
      cases h
      exact ⟨[], x, xs, s, rfl, rfl, hx⟩
    | ok t =>
      rw [hx] at h
      obtain ⟨before, y, after, u, rfl, hbefore, hy⟩ := ih h
      exact ⟨x :: before, y, after, u, rfl, foldlM_cons_eq_ok_iff.mpr ⟨t, hx, hbefore⟩, hy⟩

/-- The limit of quantifiers decides whether a character is read, never how. -/
theorem Progress.read_unique {m m' : Int} {s t t' : Progress} {c : Char} (h : s.read m c = .ok t)
    (h' : s.read m' c = .ok t') : t = t' := by
  unfold Progress.read at h h'
  cases hopened : s.opened with
  | some choice =>
    rw [hopened] at h h'
    exact Except.ok.inj (h.symm.trans h')
  | none =>
    simp only [hopened, readOutside] at h h'
    cases hq : Quantifier.ofToken? c with
    | none =>
      simp only [hq] at h h'
      exact Except.ok.inj (h.symm.trans h')
    | some q =>
      simp only [hq, bind, Except.bind] at h h'
      cases hlast : quantifyLast q s.position s.atoms with
      | error e => simp [hlast] at h
      | ok atoms =>
        simp only [hlast] at h h'
        split_ifs at h
        split_ifs at h'
        cases h
        cases h'
        rfl

/-- A fault that has a position is one under every limit. -/
theorem Progress.read_eq_error_of_position {m : Int} {s : Progress} {c : Char} {f : PatternFault}
    {n : Nat} (h : s.read m c = .error (f, some n)) (m' : Int) :
    s.read m' c = .error (f, some n) := by
  unfold Progress.read at h ⊢
  cases hopened : s.opened with
  | some choice =>
    rw [hopened] at h
    exact h
  | none =>
    simp only [hopened, readOutside] at h ⊢
    cases hq : Quantifier.ofToken? c with
    | none =>
      simp only [hq] at h ⊢
      exact h
    | some q =>
      simp only [hq, bind, Except.bind] at h ⊢
      cases hlast : quantifyLast q s.position s.atoms with
      | error e => simpa [hlast] using h
      | ok atoms =>
        simp only [hlast] at h
        split_ifs at h <;> cases h

/-- A run comes to one state only, whatever the limit is. -/
theorem run_unique {m m' : Int} {s t t' : Progress} {cs : List Char}
    (h : cs.foldlM (Progress.read m) s = .ok t) (h' : cs.foldlM (Progress.read m') s = .ok t') :
    t = t' := by
  induction cs generalizing s with
  | nil =>
    cases h
    cases h'
    rfl
  | cons c cs ih =>
    obtain ⟨u, hu, hon⟩ := foldlM_cons_eq_ok_iff.mp h
    obtain ⟨u', hu', hon'⟩ := foldlM_cons_eq_ok_iff.mp h'
    obtain rfl := Progress.read_unique hu hu'
    exact ih hon hon'

/-- **A pattern is read on from every state that its text brings the reader to**, under whatever
limits the reader came there. -/
theorem exists_run_of_parse {limits : PatternLimits} {text : String} {p : Pattern} {m : Int}
    {cs rest : List Char} {s : Progress} (hrun : cs.foldlM (Progress.read m) .start = .ok s)
    (htext : text.toList = cs ++ rest) (hparse : parse limits text = .ok p) :
    ∃ us, rest.foldlM (Progress.read limits.maxQuantifiers) s = .ok (.behind us) := by
  obtain ⟨-, us, -, hus, hphrases, -⟩ := parse_eq_ok_iff.mp hparse
  have hwhole := run_textOf hus
  rw [hphrases, htext, List.foldlM_append] at hwhole
  cases hfirst : cs.foldlM (Progress.read limits.maxQuantifiers) .start with
  | error e =>
    rw [hfirst] at hwhole
    cases hwhole
  | ok t =>
    rw [hfirst, ← run_unique hrun hfirst] at hwhole
    exact ⟨us, hwhole⟩

/-! ## Beginnings of texts -/

/-- Whether a beginning of a text is in order: it is empty, or a pattern. -/
def InOrder (limits : PatternLimits) (cs : List Char) : Prop :=
  cs = [] ∨ ∃ p, parse limits (String.ofList cs) = .ok p

/-- Whether no text that begins with these characters is a pattern, whatever the limits are. -/
def DeadEnd (cs : List Char) : Prop :=
  ∀ (limits : PatternLimits) (text : String) (p : Pattern), cs <+: text.toList →
    parse limits text ≠ .ok p

/-- Phrases that pass are in order, if their text is short enough. -/
theorem inOrder_textOf {limits : PatternLimits} {us : List Phrase}
    (hus : Admissible limits.maxQuantifiers us)
    (hlength : ((textOf us).length : Int) ≤ limits.maxLength) : InOrder limits (textOf us) := by
  by_cases hnil : us = []
  · left
    rw [hnil]
    rfl
  · right
    refine ⟨ofPhrases (String.ofList (textOf us)) us, ?_⟩
    apply parse_eq_ok_iff.mpr
    refine ⟨?_, us, hnil, hus, ?_, rfl⟩
    · rwa [String.toList_ofList]
    · rw [String.toList_ofList]

/-- **A fault with a position is a dead end**, at the character where it is found. -/
theorem deadEnd_of_read_eq_error {m : Int} {cs : List Char} {s : Progress} {c : Char}
    {f : PatternFault} {n : Nat} (hrun : cs.foldlM (Progress.read m) .start = .ok s)
    (hfault : s.read m c = .error (f, some n)) : DeadEnd (cs ++ [c]) := by
  rintro limits text p ⟨rest, htext⟩ hparse
  rw [List.append_assoc] at htext
  obtain ⟨us, hon⟩ := exists_run_of_parse hrun htext.symm hparse
  rw [List.singleton_append, List.foldlM_cons,
    Progress.read_eq_error_of_position hfault limits.maxQuantifiers] at hon
  cases hon

/-! ## Groups inside groups -/

/-- The first bracket that would open a group inside a group is noted, and stays so. -/
theorem OpenChoice.nested_extend (choice : OpenChoice) (n : Nat) (c : Char) :
    (choice.extend n c).nested = if c = '[' then choice.nested.or (some n) else choice.nested := by
  unfold extend
  split_ifs with hbar hparen hopen hopen'
  all_goals simp_all

/-- Whether the reader is inside a group in which another one has opened. -/
def Progress.Stuck (s : Progress) : Prop :=
  ∃ choice n, s.opened = some choice ∧ choice.nested = some n

/-- A reader that is stuck stays so. -/
theorem Progress.Stuck.read {m : Int} {s t : Progress} {c : Char} (hs : s.Stuck)
    (h : s.read m c = .ok t) : t.Stuck := by
  obtain ⟨choice, n, hopened, hnested⟩ := hs
  unfold Progress.read at h
  simp only [hopened, readInside] at h
  split_ifs at h with hc
  · have hclose : choice.close = .error (.nestedChoice, some n) := by
      unfold OpenChoice.close
      simp only [hnested]
    rw [hclose] at h
    cases h
  · cases h
    refine ⟨_, n, rfl, ?_⟩
    rw [OpenChoice.nested_extend, hnested]
    simp

/-- It stays so over any stretch of characters. -/
theorem Progress.Stuck.run {m : Int} {s t : Progress} {cs : List Char} (hs : s.Stuck)
    (h : cs.foldlM (Progress.read m) s = .ok t) : t.Stuck := by
  induction cs generalizing s with
  | nil =>
    cases h
    exact hs
  | cons c rest ih =>
    obtain ⟨u, hu, hon⟩ := foldlM_cons_eq_ok_iff.mp h
    exact ih (hs.read hu) hon

/-- A reader is stuck inside a group that holds an opening bracket. -/
theorem stuck_within {us : List Phrase} {body : List Char} (h : '[' ∈ body) :
    (Progress.within us body).Stuck := by
  have hnoted : ((OpenChoice.fresh (textOf us).length).readOn
      ((textOf us).length + 1) body).nested ≠ none := by
    intro hnone
    exact ((OpenChoice.nested_readOn_eq_none_iff _ _ _).mp hnone).2 h
  obtain ⟨n, hn⟩ := Option.ne_none_iff_exists'.mp hnoted
  exact ⟨_, n, rfl, hn⟩

/-- **A group inside a group is a dead end** as soon as it opens. -/
theorem deadEnd_of_stuck {m : Int} {cs : List Char} {s : Progress}
    (hrun : cs.foldlM (Progress.read m) .start = .ok s) (hs : s.Stuck) : DeadEnd cs := by
  rintro limits text p ⟨rest, htext⟩ hparse
  obtain ⟨us, hon⟩ := exists_run_of_parse hrun htext.symm hparse
  obtain ⟨choice, n, hopened, -⟩ := hs.run hon
  cases hopened

/-- A bracket that is noted stays so. -/
theorem OpenChoice.nested_readOn_of_eq_some {choice : OpenChoice} {n : Nat}
    (h : choice.nested = some n) (k : Nat) (a : List Char) :
    (choice.readOn k a).nested = some n := by
  induction a generalizing choice k with
  | nil => exact h
  | cons c rest ih =>
    rw [readOn]
    apply ih
    rw [nested_extend, h]
    simp

/-- It is the first bracket inside a group that is noted. -/
theorem OpenChoice.exists_of_nested_readOn {choice : OpenChoice} {k n : Nat} {a : List Char}
    (hnone : choice.nested = none) (h : (choice.readOn k a).nested = some n) :
    ∃ first last, a = first ++ '[' :: last ∧ '[' ∉ first ∧ n = k + first.length := by
  induction a generalizing choice k with
  | nil =>
    rw [readOn, hnone] at h
    cases h
  | cons c rest ih =>
    rw [readOn] at h
    by_cases hc : c = '['
    · have hnoted : (choice.extend k c).nested = some k := by
        rw [nested_extend, if_pos hc, hnone, Option.none_or]
      rw [nested_readOn_of_eq_some hnoted] at h
      refine ⟨[], rest, by rw [hc, List.nil_append], List.not_mem_nil, ?_⟩
      rw [← Option.some.inj h, List.length_nil, Nat.add_zero]
    · have hstill : (choice.extend k c).nested = none := by
        rw [nested_extend, if_neg hc, hnone]
      obtain ⟨first, last, rfl, hfirst, rfl⟩ := ih hstill h
      refine ⟨c :: first, last, rfl, ?_, ?_⟩
      · rw [List.mem_cons, not_or]
        exact ⟨Ne.symm hc, hfirst⟩
      · rw [List.length_cons]
        omega

/-! ## Faults -/

/-- The faults that are found at their own character. -/
inductive Misplaced : PatternFault → Char → Prop
  | nothingToRepeat (q : Quantifier) : Misplaced (.nothingToRepeat q.token) q.token
  | quantifiedChoice (q : Quantifier) : Misplaced .quantifiedChoice q.token
  | repeatedQuantifier (q : Quantifier) : Misplaced (.repeatedQuantifier q.token) q.token
  | strayBracket : Misplaced .strayBracket ']'
  | strayBar : Misplaced .strayBar '|'

/-- The faults that are found when a group closes, and lie where it opens. -/
inductive Unfilled : PatternFault → Prop
  | tooFewAlternatives : Unfilled .tooFewAlternatives
  | emptyAlternative : Unfilled .emptyAlternative

/-- A quantifier that has no class in front of it is misplaced. -/
theorem misplaced_of_quantifyLast {q : Quantifier} {n : Nat} {atoms : List Atom} {e : Misread}
    (h : quantifyLast q n atoms = .error e) : ∃ f, e = (f, some n) ∧ Misplaced f q.token := by
  cases atoms with
  | nil =>
    cases h
    exact ⟨_, rfl, .nothingToRepeat q⟩
  | cons a before =>
    unfold quantifyLast at h
    cases hpiece : a.piece with
    | choice | rest =>
      simp only [hpiece, Except.error.injEq] at h
      exact ⟨_, h.symm, .quantifiedChoice q⟩
    | single cls q' =>
      cases q' with
      | none =>
        simp only [hpiece] at h
        cases h
      | some q' =>
        simp only [hpiece, Except.error.injEq] at h
        exact ⟨_, h.symm, .repeatedQuantifier q⟩

/-- **What can be wrong with a character behind phrases**: it is misplaced, or it is a quantifier
too many. -/
theorem read_behind_eq_error {m : Int} {us : List Phrase} {c : Char} {e : Misread}
    (h : (Progress.behind us).read m c = .error e) :
    (∃ f, e = (f, some (textOf us).length) ∧ Misplaced f c) ∨
      ∃ (q : Quantifier) (vs : List Phrase) (d : Char), c = q.token ∧ us = vs ++ [.plain d none] ∧
        m < (quantifiedCount us : Int) + 1 ∧ e = (.tooManyQuantifiers m, none) := by
  change (Progress.behind us).readOutside m c = .error e at h
  unfold Progress.readOutside at h
  cases hq : Quantifier.ofToken? c with
  | some q =>
    obtain rfl := Quantifier.ofToken?_eq_some_iff.mp hq
    simp only [hq, bind, Except.bind] at h
    cases hlast : quantifyLast q (Progress.behind us).position (Progress.behind us).atoms with
    | error e' =>
      rw [hlast] at h
      cases h
      exact Or.inl (misplaced_of_quantifyLast hlast)
    | ok atoms =>
      obtain ⟨vs, d, hus, -⟩ := quantifyLast_eq_ok_iff.mp hlast
      simp only [hlast] at h
      by_cases hm : m < ((Progress.behind us).quantified : Int) + 1
      · rw [if_pos hm] at h
        cases h
        exact Or.inr ⟨q, vs, d, rfl, hus, hm, rfl⟩
      · rw [if_neg hm] at h
        cases h
  | none =>
    left
    simp only [hq] at h
    split_ifs at h with hopen hclose hbar
    · cases h
    · cases h
      rw [hclose]
      exact ⟨_, rfl, .strayBracket⟩
    · cases h
      rw [hbar]
      exact ⟨_, rfl, .strayBar⟩
    · cases h

/-- **What can be wrong with a character inside a group**: it is the closing bracket, and there is a
group inside the group or the group is not filled. -/
theorem read_within_eq_error {m : Int} {us : List Phrase} {body : List Char} {c : Char}
    {e : Misread} (h : (Progress.within us body).read m c = .error e) :
    c = ']' ∧
      ((∃ first last, body = first ++ '[' :: last ∧ '[' ∉ first ∧
          e = (.nestedChoice, some ((textOf us).length + 1 + first.length))) ∨
        ∃ f, Unfilled f ∧ e = (f, some (textOf us).length)) := by
  change (Progress.within us body).readInside
    ((OpenChoice.fresh (textOf us).length).readOn ((textOf us).length + 1) body) c = .error e at h
  unfold Progress.readInside at h
  split_ifs at h with hc
  · refine ⟨hc, ?_⟩
    cases hclose : ((OpenChoice.fresh (textOf us).length).readOn
        ((textOf us).length + 1) body).close with
    | ok alternatives =>
      rw [hclose] at h
      cases h
    | error e' =>
      rw [hclose] at h
      cases h
      unfold OpenChoice.close at hclose
      cases hnested : ((OpenChoice.fresh (textOf us).length).readOn
          ((textOf us).length + 1) body).nested with
      | some n =>
        left
        simp only [hnested, Except.error.injEq] at hclose
        obtain ⟨first, last, hbody, hfirst, rfl⟩ := OpenChoice.exists_of_nested_readOn rfl hnested
        exact ⟨first, last, hbody, hfirst, hclose.symm⟩
      | none =>
        right
        simp only [hnested, OpenChoice.start_readOn] at hclose
        split_ifs at hclose
        · cases hclose
          exact ⟨_, .tooFewAlternatives, rfl⟩
        · cases hclose
          exact ⟨_, .emptyAlternative, rfl⟩
  · cases h

/-! ## Reports -/

/-- Where the fault of a report lies in a text. Up to the fault the text is in order; for a group
inside a group, up to the outer one. No text that begins the same way is a pattern: for a fault of a
group that is closed, a text that goes on up to the first closing bracket. -/
inductive Located (limits : PatternLimits) (cs : List Char) : PatternFault → Nat → Prop
  | misplaced {f : PatternFault} {c : Char} {n : Nat} (fault : Misplaced f c)
      (here : cs[n]? = some c) (before : InOrder limits (cs.take n))
      (after : DeadEnd (cs.take (n + 1))) : Located limits cs f n
  | nested {b n : Nat} (here : cs[n]? = some '[') (inside : b < n) (outer : cs[b]? = some '[')
      (between : ∀ c ∈ (cs.take n).drop (b + 1), c ≠ '[' ∧ c ≠ ']')
      (before : InOrder limits (cs.take b)) (after : DeadEnd (cs.take (n + 1))) :
      Located limits cs .nestedChoice n
  | unclosed {n : Nat} (here : cs[n]? = some '[') (before : InOrder limits (cs.take n))
      (unclosed : ']' ∉ cs.drop (n + 1)) : Located limits cs .unclosedChoice n
  | unfilled {f : PatternFault} {n k : Nat} (fault : Unfilled f) (here : cs[n]? = some '[')
      (before : InOrder limits (cs.take n)) (inside : n < k) (closing : cs[k]? = some ']')
      (first : ']' ∉ (cs.take k).drop (n + 1)) (after : DeadEnd (cs.take (k + 1))) :
      Located limits cs f n

/-- The run into a group. -/
theorem run_within {m : Int} {us : List Phrase} {body : List Char} (hus : Admissible m us)
    (hbody : ']' ∉ body) :
    (textOf us ++ '[' :: body).foldlM (Progress.read m) .start = .ok (.within us body) := by
  have hopen : (Progress.behind us).read m '[' = .ok (.within us []) := rfl
  have hrun : body.foldlM (Progress.read m) (.within us []) = .ok (.within us ([] ++ body)) :=
    run_body hbody
  rw [List.foldlM_append, run_textOf hus]
  change ('[' :: body).foldlM (Progress.read m) (.behind us) = _
  rw [List.foldlM_cons, hopen]
  exact hrun

/-- How reading a text can fail: at a character, or because a group is still open at the end. -/
theorem scan_eq_error_cases {m : Int} {cs : List Char} {e : Misread} (h : scan m cs = .error e) :
    (∃ before c after s, cs = before ++ c :: after ∧ Reached m before s ∧
        before.foldlM (Progress.read m) .start = .ok s ∧ s.read m c = .error e) ∨
      ∃ us body, Admissible m us ∧ ']' ∉ body ∧ cs = textOf us ++ '[' :: body ∧
        e = (.unclosedChoice, some (textOf us).length) := by
  unfold scan at h
  cases hrun : cs.foldlM (Progress.read m) .start with
  | error e' =>
    rw [hrun] at h
    cases h
    obtain ⟨before, c, after, s, hsplit, hbefore, hfault⟩ := exists_of_foldlM_eq_error hrun
    exact Or.inl ⟨before, c, after, s, hsplit, reached_of_run hbefore, hbefore, hfault⟩
  | ok s =>
    rw [hrun] at h
    cases reached_of_run hrun with
    | behind hus => cases h
    | @within us body hus hbody =>
      cases h
      refine Or.inr ⟨us, body, hus, hbody, rfl, ?_⟩
      rw [OpenChoice.start_readOn]
      rfl

/-- Where a group inside a group lies. -/
theorem located_nested {limits : PatternLimits} {cs : List Char} {us : List Phrase}
    {first last more : List Char} (hus : Admissible limits.maxQuantifiers us)
    (hbody : ']' ∉ first ++ '[' :: last) (hfirst : '[' ∉ first)
    (hcs : cs = textOf us ++ '[' :: (first ++ '[' :: last ++ more))
    (hbefore : InOrder limits (cs.take (textOf us).length)) :
    Located limits cs .nestedChoice ((textOf us).length + 1 + first.length) := by
  have hinner : cs = textOf us ++ '[' :: first ++ '[' :: (last ++ more) := by
    rw [hcs]
    simp only [List.append_assoc, List.cons_append]
  have hn : (textOf us ++ '[' :: first).length = (textOf us).length + 1 + first.length := by
    rw [List.length_append, List.length_cons]
    omega
  rw [← hn]
  refine .nested (getElem?_of_split hinner) ?_ (getElem?_of_split hcs) ?_ hbefore ?_
  · omega
  · rw [(take_of_split hinner).1, drop_of_split rfl]
    intro c hc
    refine ⟨ne_of_mem_of_not_mem hc hfirst, ne_of_mem_of_not_mem hc ?_⟩
    exact fun hclose => hbody (List.mem_append_left _ hclose)
  · rw [(take_of_split hinner).2, List.append_assoc, List.cons_append]
    have hopened : ']' ∉ first ++ ['['] := by
      intro hclose
      apply hbody
      rw [List.append_cons]
      exact List.mem_append_left _ hclose
    apply deadEnd_of_stuck (run_within hus hopened)
    exact stuck_within (List.mem_append_right _ (List.mem_singleton_self _))

/-- **Where a fault with a position lies.** -/
theorem located_of_scan {limits : PatternLimits} {cs : List Char} {f : PatternFault} {n : Nat}
    (hlength : (cs.length : Int) ≤ limits.maxLength)
    (h : scan limits.maxQuantifiers cs = .error (f, some n)) : Located limits cs f n := by
  -- the phrases up to the fault, or up to the group that it is in, are in order
  have hbefore : ∀ us more, Admissible limits.maxQuantifiers us → cs = textOf us ++ more →
      InOrder limits (cs.take (textOf us).length) := by
    intro us more hus hsplit
    have hle := congrArg List.length hsplit
    rw [List.length_append] at hle
    rw [hsplit, List.take_left]
    apply inOrder_textOf hus
    omega
  rcases scan_eq_error_cases h with ⟨read, c, after, s, hsplit, hreached, hrun, hfault⟩ |
    ⟨us, body, hus, hbody, hsplit, he⟩
  · have hdead := deadEnd_of_read_eq_error hrun hfault
    have hdeadHere : DeadEnd (cs.take (read.length + 1)) := by
      rw [(take_of_split hsplit).2]
      exact hdead
    cases hreached with
    | @behind us hus =>
      rcases read_behind_eq_error hfault with ⟨f', he, hmisplaced⟩ | ⟨q, vs, d, -, -, -, he⟩
      · cases he
        exact .misplaced hmisplaced (getElem?_of_split hsplit) (hbefore us _ hus hsplit) hdeadHere
      · cases he
    | @within us body hus hbody =>
      have hgroup : cs = textOf us ++ '[' :: (body ++ c :: after) := by
        rw [hsplit, List.append_assoc, List.cons_append]
      obtain ⟨rfl, ⟨first, last, rfl, hfirst, he⟩ | ⟨f', hunfilled, he⟩⟩ :=
        read_within_eq_error hfault
      · cases he
        exact located_nested hus hbody hfirst hgroup (hbefore us _ hus hgroup)
      · cases he
        refine .unfilled (k := (textOf us ++ '[' :: body).length) hunfilled
          (getElem?_of_split hgroup) (hbefore us _ hus hgroup) ?_ (getElem?_of_split hsplit) ?_
          hdeadHere
        · rw [List.length_append, List.length_cons]
          omega
        · rw [(take_of_split hsplit).1, drop_of_split rfl]
          exact hbody
  · cases he
    refine .unclosed (getElem?_of_split hsplit) (hbefore us _ hus hsplit) ?_
    rw [drop_of_split hsplit]
    exact hbody

/-- Phrases behind which there is no room for one more quantifier are a pattern with as many
quantifiers as there may be. -/
theorem parse_textOf_of_full {limits : PatternLimits} {us : List Phrase} (hne : us ≠ [])
    (hus : Admissible limits.maxQuantifiers us)
    (hlength : ((textOf us).length : Int) ≤ limits.maxLength) (hmax : 0 ≤ limits.maxQuantifiers)
    (hfull : limits.maxQuantifiers < (quantifiedCount us : Int) + 1) :
    ∃ p, parse limits (String.ofList (textOf us)) = .ok p ∧
      (p.quantified : Int) = limits.maxQuantifiers := by
  refine ⟨ofPhrases (String.ofList (textOf us)) us, parse_eq_ok_iff.mpr ⟨?_, us, hne, hus, ?_, rfl⟩,
    ?_⟩
  · rwa [String.toList_ofList]
  · rw [String.toList_ofList]
  · rw [quantified_ofPhrases]
    rcases hus.within with hzero | hwithin
    · omega
    · omega

/-- **Where a quantifier too many stands**: behind a pattern that has as many as there may be. -/
theorem exists_of_scan_eq_error_none {limits : PatternLimits} {cs : List Char} {f : PatternFault}
    (hlength : (cs.length : Int) ≤ limits.maxLength) (hmax : 0 ≤ limits.maxQuantifiers)
    (h : scan limits.maxQuantifiers cs = .error (f, none)) :
    ∃ (i : Nat) (q : Quantifier) (p : Pattern), cs[i]? = some q.token ∧
      parse limits (String.ofList (cs.take i)) = .ok p ∧
      (p.quantified : Int) = limits.maxQuantifiers := by
  rcases scan_eq_error_cases h with ⟨read, c, after, s, hsplit, hreached, -, hfault⟩ |
    ⟨us, body, -, -, -, he⟩
  · cases hreached with
    | @behind us hus =>
      rcases read_behind_eq_error hfault with ⟨f', he, -⟩ | ⟨q, vs, d, rfl, rfl, hmany, -⟩
      · cases he
      · have hle := congrArg List.length hsplit
        rw [List.length_append] at hle
        obtain ⟨p, hparse, hcount⟩ :=
          parse_textOf_of_full (List.concat_ne_nil _ _) hus (by omega) hmax hmany
        refine ⟨_, q, p, getElem?_of_split hsplit, ?_, hcount⟩
        rwa [(take_of_split hsplit).1]
    | within hus hbody =>
      obtain ⟨-, ⟨first, last, -, -, he⟩ | ⟨f', -, he⟩⟩ := read_within_eq_error hfault
      · cases he
      · cases he
  · cases he

/-- **A report points at the first fault.** Where it has no position, a quantifier stands behind a
pattern with as many quantifiers as there may be. Where it has one, that is the place of the fault:
the text up to it is in order, and no text that begins the same way is a pattern. -/
theorem parse_error_at_first_fault {limits : PatternLimits} {source : String} {e : PatternError}
    (hne : source ≠ "") (hlength : (source.length : Int) ≤ limits.maxLength)
    (h : parse limits source = .error e) :
    (e.position = none → 0 ≤ limits.maxQuantifiers →
      ∃ (i : Nat) (q : Quantifier) (p : Pattern), source.toList[i]? = some q.token ∧
        parse limits (String.ofList (source.toList.take i)) = .ok p ∧
        (p.quantified : Int) = limits.maxQuantifiers) ∧
      ∀ n, e.position = some n → Located limits source.toList e.fault n := by
  have hlength' : (source.toList.length : Int) ≤ limits.maxLength := by
    rwa [String.length_toList]
  have hnil : source.toList.isEmpty = false := by
    rw [List.isEmpty_eq_false_iff]
    exact fun hempty => hne (String.toList_eq_nil_iff.mp hempty)
  unfold parse at h
  simp only [hnil, Bool.false_eq_true, if_false, if_neg (not_lt.mpr hlength')] at h
  cases hscan : scan limits.maxQuantifiers source.toList with
  | ok atoms =>
    rw [hscan] at h
    cases h
  | error misread =>
    obtain ⟨f, position⟩ := misread
    rw [hscan] at h
    cases h
    constructor
    · intro hposition hmax
      obtain rfl : position = none := hposition
      exact exists_of_scan_eq_error_none hlength' hmax hscan
    · intro n hposition
      obtain rfl : position = some n := hposition
      exact located_of_scan hlength' hscan

/-- In `N[5|[6]x` the report is about the inner group; among patterns with one quantifier at most,
that of `X+X+` has no position. -/
theorem parse_error_at_first_fault_nestedGroup :
    ∃ e e' : PatternError,
      parse ⟨20, 5, 0⟩ "N[5|[6]x" = .error e ∧ e.position = some 4 ∧
        Located ⟨20, 5, 0⟩ "N[5|[6]x".toList e.fault 4 ∧
      parse ⟨20, 1, 0⟩ "X+X+" = .error e' ∧ e'.position = none ∧
        ∃ (i : Nat) (q : Quantifier) (p : Pattern), "X+X+".toList[i]? = some q.token ∧
          parse ⟨20, 1, 0⟩ (String.ofList ("X+X+".toList.take i)) = .ok p ∧
          (p.quantified : Int) = 1 := by
  have hnested : parse ⟨20, 5, 0⟩ "N[5|[6]x" = .error ⟨.nestedChoice, "N[5|[6]x", some 4⟩ := rfl
  have hmany : parse ⟨20, 1, 0⟩ "X+X+" = .error ⟨.tooManyQuantifiers 1, "X+X+", none⟩ := rfl
  refine ⟨_, _, hnested, rfl, ?_, hmany, rfl, ?_⟩
  · exact (parse_error_at_first_fault (by decide) (by decide) hnested).2 4 rfl
  · exact (parse_error_at_first_fault (by decide) (by decide) hmany).1 rfl (by decide)

end CallRouting.Pattern

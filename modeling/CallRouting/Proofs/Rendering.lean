import CallRouting.Proofs.Runs

/-!
# What is rendered

Rendering goes through a template from left to right, and puts the groups in at its maximal runs of
`$`, the same ones that are counted beforehand.

* **From left to right** (`Filling.write_eq_scan`): to write the parts of a template is to write its
  characters, running ahead at each `$` to the end of the run.
* **The outcome** (`Filling.write_runs`, `render_cases`): either every run goes with its group and
  the cut is filled, or the first run that does not is reported.
* **Rendering** (`exists_render_iff`, `eq_fill_of_render`, `render_eq_error_iff`, `render_lenient`):
  when it succeeds, what the result is and what is reported; together, `render_exact`.
-/

namespace CallRouting

open TemplateCut (runsParts)

/-! ## From left to right -/

/-- Writes a template out from left to right. At a `$` it runs ahead to the end of the run. -/
def Filling.scan (f : Filling) (index : Nat) (groups : List String) :
    List Char → Except TemplateError (List Char)
  | [] => .ok []
  | c :: cs =>
    if c = '$' then
      let n := (cs.takeWhile (· = '$')).length + 1
      match groups with
      | [] => .error (.exhausted f.groupCount)
      | group :: groups =>
        if f.strict && group.length ≠ n then .error (.length index n group)
        else (group.toList ++ ·) <$> f.scan (index + 1) groups (cs.dropWhile (· = '$'))
    else if c = 'Z' then
      (((f.rest.map String.toList).getD ['Z']) ++ ·) <$> f.scan index groups cs
    else (c :: ·) <$> f.scan index groups cs
termination_by cs => cs.length
decreasing_by
  · exact Nat.lt_succ_of_le (List.dropWhile_suffix _).length_le
  all_goals exact Nat.lt_succ_self _

/-- At a `$` there is a run that goes on as far as there are more of them. -/
theorem templateParts_dollar (cs : List Char) :
    templateParts ('$' :: cs) =
      .run ((cs.takeWhile (· = '$')).length + 1) :: templateParts (cs.dropWhile (· = '$')) := by
  induction cs with
  | nil => rfl
  | cons c cs ih =>
    rw [templateParts, if_pos rfl]
    by_cases hc : c = '$'
    · subst hc
      rw [ih]
      simp [TemplatePart.lengthen]
    · simp only [List.takeWhile_cons, List.dropWhile_cons, decide_eq_true_eq, if_neg hc]
      rw [templateParts, if_neg hc]
      split_ifs <;> rfl

/-- **Writing the parts and writing from left to right are the same.** -/
theorem Filling.write_eq_scan (f : Filling) (index : Nat) (groups : List String) (cs : List Char) :
    f.write index groups (templateParts cs) = f.scan index groups cs := by
  induction index, groups, cs using Filling.scan.induct f with
  | case1 index groups =>
    rw [scan]
    rfl
  | case2 index cs =>
    rw [templateParts_dollar, scan, if_pos rfl]
    rfl
  | case3 index cs n group groups hmis =>
    rw [templateParts_dollar, scan, if_pos rfl]
    exact (if_pos hmis).trans (if_pos hmis).symm
  | case4 index cs n group groups hfit ih =>
    rw [templateParts_dollar, scan, if_pos rfl]
    refine (if_neg hfit).trans ?_
    rw [ih]
    exact (if_neg hfit).symm
  | case5 index groups cs hz ih =>
    rw [templateParts, if_neg hz, if_pos rfl, scan, if_neg hz, if_pos rfl, ← ih]
    rfl
  | case6 index groups c cs hc hz ih =>
    rw [templateParts, if_neg hc, if_neg hz, scan, if_neg hc, if_neg hz, ← ih]
    rfl

/-! ## The outcome -/

/-- A character outside the runs as it is written: the mark for what is left is replaced, every
other character stays. -/
def written (mark : List Char) (c : Char) : List Char := if c = 'Z' then mark else [c]

/-- Runs are replaced by the groups, one by one, and what stands behind them is written. -/
def fillRuns (mark : List Char) (groups : List String) (runs : List (Nat × List Char)) :
    List Char :=
  (runs.zip groups).flatMap fun (run, group) => group.toList ++ run.2.flatMap (written mark)

/-- A cut with its runs replaced by the groups. -/
def TemplateCut.fill (mark : List Char) (groups : List String) (cut : TemplateCut) : List Char :=
  cut.start.flatMap (written mark) ++ fillRuns mark groups cut.runs

/-- Whether the run with an index does not go with its group: there is no such group, or it differs
in length under the strict rule. -/
def Misfit (strict : Bool) (runs : List Nat) (groups : List String) (i : Nat) : Prop :=
  ∃ run, runs[i]? = some run ∧
    ∀ group, groups[i]? = some group → strict = true ∧ group.length ≠ run

/-- There is no group for the first run. -/
theorem misfit_nil (strict : Bool) (n : Nat) (runs : List Nat) : Misfit strict (n :: runs) [] 0 :=
  ⟨n, rfl, by simp⟩

/-- Whether the first run goes with the first group. -/
theorem misfit_zero_iff {strict : Bool} {n : Nat} {runs : List Nat} {group : String}
    {groups : List String} :
    Misfit strict (n :: runs) (group :: groups) 0 ↔
      (strict && decide (group.length ≠ n)) = true := by
  simp [Misfit]

/-- Whether the runs behind the first one go with their groups. -/
theorem misfit_succ_iff {strict : Bool} {n : Nat} {runs : List Nat} {group : String}
    {groups : List String} {i : Nat} :
    Misfit strict (n :: runs) (group :: groups) (i + 1) ↔ Misfit strict runs groups i := by
  simp [Misfit]

/-- Whether the run with an index is the first one that does not go with its group. -/
def FirstMisfit (strict : Bool) (runs : List Nat) (groups : List String) (i : Nat) : Prop :=
  Misfit strict runs groups i ∧ ∀ j < i, ¬ Misfit strict runs groups j

/-- Whether a fault is what is to be reported of the run with an index: that there are no more
groups, or the length of the run and the group that differs. -/
def Reported (runs : List Nat) (groups : List String) (i : Nat) (e : TemplateError) : Prop :=
  i = groups.length ∧ e = .exhausted groups.length ∨
    ∃ run group, runs[i]? = some run ∧ groups[i]? = some group ∧ e = .length i run group

namespace Filling

variable (f : Filling)

/-- What the mark for what is left is replaced by. -/
def mark : List Char := (f.rest.map String.toList).getD ['Z']

/-- Characters outside the runs are written one by one. -/
theorem write_part (index : Nat) (groups : List String) (cs : List Char)
    (parts : List TemplatePart) :
    f.write index groups (cs.map TemplateCut.part ++ parts) =
      (cs.flatMap (written f.mark) ++ ·) <$> f.write index groups parts := by
  induction cs with
  | nil => exact (id_map _).symm
  | cons c cs ih =>
    have hone : f.write index groups (TemplateCut.part c :: (cs.map TemplateCut.part ++ parts)) =
        (written f.mark c ++ ·) <$> f.write index groups (cs.map TemplateCut.part ++ parts) := by
      unfold TemplateCut.part written
      split_ifs <;> rfl
    rw [List.map_cons, List.cons_append, hone, ih, ← comp_map]
    congr 1
    funext text
    simp [List.flatMap_cons]

/-- A run that goes with its group is replaced, and what stands behind it is written. -/
theorem write_run {index n : Nat} {group : String}
    (hfit : ¬ (f.strict && decide (group.length ≠ n)) = true) (gap : List Char)
    (groups : List String) (runs : List (Nat × List Char)) :
    f.write index (group :: groups) (runsParts ((n, gap) :: runs)) =
      (group.toList ++ gap.flatMap (written f.mark) ++ ·) <$>
        f.write (index + 1) groups (runsParts runs) := by
  rw [TemplateCut.runsParts_cons, write, if_neg hfit, write_part, ← comp_map]
  congr 1
  funext text
  simp

/-- **What comes of runs.** Either every run goes with its group and they are replaced, or the first
run that does not is what is reported. -/
theorem write_runs (index : Nat) (groups : List String) (runs : List (Nat × List Char)) :
    ((∀ i, ¬ Misfit f.strict (runs.map (·.1)) groups i) ∧
        f.write index groups (runsParts runs) = .ok (fillRuns f.mark groups runs)) ∨
      ∃ i, FirstMisfit f.strict (runs.map (·.1)) groups i ∧
        (i = groups.length ∧
            f.write index groups (runsParts runs) = .error (.exhausted f.groupCount) ∨
          ∃ run group, (runs.map (·.1))[i]? = some run ∧ groups[i]? = some group ∧
            f.write index groups (runsParts runs) =
              .error (.length (index + i : Nat) run group)) := by
  induction runs generalizing index groups with
  | nil => exact Or.inl ⟨fun i h => by simp [Misfit] at h, rfl⟩
  | cons run runs ih =>
    obtain ⟨n, gap⟩ := run
    cases groups with
    | nil => exact Or.inr ⟨0, ⟨misfit_nil _ _ _, by simp⟩, Or.inl ⟨rfl, rfl⟩⟩
    | cons group groups =>
      by_cases hmis : (f.strict && decide (group.length ≠ n)) = true
      · refine Or.inr ⟨0, ⟨misfit_zero_iff.mpr hmis, by simp⟩, Or.inr ⟨n, group, rfl, rfl, ?_⟩⟩
        rw [TemplateCut.runsParts_cons, write, if_pos hmis]
        rfl
      · rw [f.write_run hmis]
        rcases ih (index + 1) groups with ⟨hnone, hok⟩ | ⟨i, ⟨hi, hbefore⟩, hreport⟩
        · refine Or.inl ⟨fun i => ?_, by rw [hok]; simp [fillRuns, Functor.map, Except.map]⟩
          cases i with
          | zero => exact mt misfit_zero_iff.mp hmis
          | succ i => exact mt misfit_succ_iff.mp (hnone i)
        · refine Or.inr ⟨i + 1, ⟨misfit_succ_iff.mpr hi, fun j hj => ?_⟩, ?_⟩
          · cases j with
            | zero => exact mt misfit_zero_iff.mp hmis
            | succ j => exact mt misfit_succ_iff.mp (hbefore j (Nat.lt_of_succ_lt_succ hj))
          · rcases hreport with ⟨rfl, herror⟩ | ⟨run, g, hrun, hg, herror⟩
            · exact Or.inl ⟨rfl, by rw [herror]; rfl⟩
            · refine Or.inr ⟨run, g, by simpa using hrun, by simpa using hg, ?_⟩
              rw [herror, Nat.add_right_comm, Nat.add_assoc]
              rfl

end Filling

/-! ## Rendering -/

/-- No run is a misfit exactly if there are not more runs than groups and, under the strict rule,
each run is as long as its group. -/
theorem forall_not_misfit_iff {strict : Bool} {runs : List Nat} {groups : List String} :
    (∀ i, ¬ Misfit strict runs groups i) ↔
      runs.length ≤ groups.length ∧
        (strict = true → ∀ (i run : Nat) (group : String), runs[i]? = some run →
          groups[i]? = some group → group.length = run) := by
  constructor
  · intro h
    refine ⟨?_, fun hstrict i run group hrun hgroup => ?_⟩
    · by_contra hmany
      have hlt : groups.length < runs.length := Nat.not_le.mp hmany
      exact h groups.length ⟨runs[groups.length], List.getElem?_eq_getElem hlt, by simp⟩
    · by_contra hne
      refine h i ⟨run, hrun, fun g hg => ?_⟩
      rw [hgroup] at hg
      exact ⟨hstrict, Option.some.inj hg ▸ hne⟩
  · rintro ⟨hcount, hlengths⟩ i ⟨run, hrun, hmis⟩
    obtain ⟨hi, -⟩ := List.getElem?_eq_some_iff.mp hrun
    obtain ⟨hstrict, hne⟩ := hmis _ (List.getElem?_eq_getElem (hi.trans_le hcount))
    exact hne (hlengths hstrict i run _ hrun (List.getElem?_eq_getElem (hi.trans_le hcount)))

/-- There is one first misfit only. -/
theorem FirstMisfit.unique {strict : Bool} {runs : List Nat} {groups : List String} {i j : Nat}
    (hi : FirstMisfit strict runs groups i) (hj : FirstMisfit strict runs groups j) : i = j := by
  rcases lt_trichotomy i j with hlt | heq | hlt
  · exact absurd hi.1 (hj.2 i hlt)
  · exact heq
  · exact absurd hj.1 (hi.2 j hlt)

/-- There is one fault only to be reported of a run. -/
theorem Reported.unique {runs : List Nat} {groups : List String} {i : Nat} {e e' : TemplateError}
    (h : Reported runs groups i e) (h' : Reported runs groups i e') : e = e' := by
  rcases h with ⟨rfl, rfl⟩ | ⟨run, group, hrun, hgroup, rfl⟩ <;>
    rcases h' with ⟨hi, rfl⟩ | ⟨run', group', hrun', hgroup', rfl⟩
  · rfl
  · simp at hgroup'
  · simp [hi] at hgroup
  · rw [Option.some.inj (hrun.symm.trans hrun'), Option.some.inj (hgroup.symm.trans hgroup')]

/-- What the groups are put in with, and what `Z` is replaced by. -/
def filling (strict : Bool) (groups : List String) (rest : Option String)
    (hasRest : Option Bool) : Filling :=
  { strict, groupCount := groups.length
    rest := if hasRest.getD rest.isSome then some (rest.getD "") else none }

/-- `Z` is replaced by what is left, if it is a mark. -/
theorem mark_filling (strict : Bool) (groups : List String) (rest : Option String)
    (hasRest : Option Bool) :
    (filling strict groups rest hasRest).mark =
      if hasRest.getD rest.isSome then (rest.getD "").toList else ['Z'] := by
  unfold filling Filling.mark
  split_ifs <;> rfl

variable (strict : Bool) (groups : List String) (rest : Option String) (hasRest : Option Bool)
  (template : String)

/-- **Rendering writes the cut of a template.** -/
theorem render_eq_write :
    render strict groups rest hasRest template =
      (fun text => String.ofList ((TemplateCut.of template.toList).start.flatMap
          (written (filling strict groups rest hasRest).mark) ++ text)) <$>
        (filling strict groups rest hasRest).write 0 groups
          (runsParts (TemplateCut.of template.toList).runs) := by
  change String.ofList <$> (filling strict groups rest hasRest).write 0 groups _ = _
  rw [templateParts_eq, TemplateCut.parts, Filling.write_part, ← comp_map]
  rfl

/-- **What comes of rendering.** Either every run goes with its group and the cut is filled, or the
first run that does not is what is reported. -/
theorem render_cases :
    ((∀ i, ¬ Misfit strict (placeholderRuns template) groups i) ∧
        render strict groups rest hasRest template =
          .ok (String.ofList ((TemplateCut.of template.toList).fill
            (filling strict groups rest hasRest).mark groups))) ∨
      ∃ i e, FirstMisfit strict (placeholderRuns template) groups i ∧
        Reported (placeholderRuns template) groups i e ∧
        render strict groups rest hasRest template = .error e := by
  rw [render_eq_write, placeholderRuns_eq_lengths]
  rcases (filling strict groups rest hasRest).write_runs 0 groups
    (TemplateCut.of template.toList).runs with
    ⟨hnone, hok⟩ | ⟨i, hi, ⟨hcount, herror⟩ | ⟨run, group, hrun, hgroup, herror⟩⟩
  · exact Or.inl ⟨hnone, by rw [hok]; rfl⟩
  · exact Or.inr ⟨i, _, hi, Or.inl ⟨hcount, rfl⟩, by rw [herror]; rfl⟩
  · refine Or.inr ⟨i, _, hi, Or.inr ⟨run, group, hrun, hgroup, rfl⟩, ?_⟩
    rw [herror, Nat.zero_add]
    rfl

/-- **When rendering succeeds.** -/
theorem exists_render_iff :
    (∃ text, render strict groups rest hasRest template = .ok text) ↔
      (placeholderRuns template).length ≤ groups.length ∧
        (strict = true → ∀ (i run : Nat) (group : String),
          (placeholderRuns template)[i]? = some run → groups[i]? = some group →
            group.length = run) := by
  rw [← forall_not_misfit_iff]
  rcases render_cases strict groups rest hasRest template with
    ⟨hnone, hok⟩ | ⟨i, e, hi, -, herror⟩
  · exact iff_of_true ⟨_, hok⟩ hnone
  · refine iff_of_false ?_ fun hnone => hnone i hi.1
    rintro ⟨text, hok⟩
    rw [herror] at hok
    cases hok

/-- **What is rendered.** -/
theorem eq_fill_of_render {text : String}
    (h : render strict groups rest hasRest template = .ok text) :
    text = String.ofList ((TemplateCut.of template.toList).fill
      (if hasRest.getD rest.isSome then (rest.getD "").toList else ['Z']) groups) := by
  rcases render_cases strict groups rest hasRest template with
    ⟨-, hok⟩ | ⟨i, e, -, -, herror⟩
  · rw [hok, mark_filling] at h
    exact (Except.ok.inj h).symm
  · rw [herror] at h
    cases h

/-- **What is reported.** -/
theorem render_eq_error_iff {e : TemplateError} :
    render strict groups rest hasRest template = .error e ↔
      ∃ i, FirstMisfit strict (placeholderRuns template) groups i ∧
        Reported (placeholderRuns template) groups i e := by
  rcases render_cases strict groups rest hasRest template with
    ⟨hnone, hok⟩ | ⟨i, e', hi, he', herror⟩
  · rw [hok]
    refine iff_of_false (fun h => by cases h) ?_
    rintro ⟨i, hi, -⟩
    exact hnone i hi.1
  · rw [herror]
    constructor
    · intro h
      cases h
      exact ⟨i, hi, he'⟩
    · rintro ⟨j, hj, he⟩
      obtain rfl := hi.unique hj
      rw [he'.unique he]

variable {groups rest hasRest template}

/-- What succeeds under the strict rule succeeds without it, with the same result. -/
theorem render_lenient {text : String} (h : render true groups rest hasRest template = .ok text) :
    render false groups rest hasRest template = .ok text := by
  have hfits := (exists_render_iff true groups rest hasRest template).mp ⟨text, h⟩
  obtain ⟨text', h'⟩ := (exists_render_iff false groups rest hasRest template).mpr
    ⟨hfits.1, fun hstrict => absurd hstrict (by decide)⟩
  rw [h', eq_fill_of_render _ _ _ _ _ h, eq_fill_of_render _ _ _ _ _ h']

variable (groups rest hasRest template)

/-- **Rendering is exact.** A template can be cut at its maximal runs of `$` in one way, and the
runs of the cut are the ones that are counted and the ones at which the groups are put in. Rendering
succeeds exactly if there are not more runs than groups and, under the strict rule, each run is as
long as its group. The result is then the template with its runs replaced by the groups, every `Z`
by what is left if it is a mark, and every other character in its place. Otherwise the first run
that does not go with its group is reported: that there are no more groups, or the length of the
run and the group that differs. So what succeeds under the strict rule has the same result without
it. -/
theorem render_exact :
    ∃ cut : TemplateCut, (∀ c : TemplateCut, c.Cuts template.toList ↔ c = cut) ∧
      placeholderRuns template = cut.lengths ∧
      placeholderRuns template = countRuns 0 (template.toList ++ ['\x00']) ∧
      render strict groups rest hasRest template =
        String.ofList <$> (filling strict groups rest hasRest).scan 0 groups template.toList ∧
      ((∃ text, render strict groups rest hasRest template = .ok text) ↔
        (placeholderRuns template).length ≤ groups.length ∧
          (strict = true → ∀ (i run : Nat) (group : String),
            (placeholderRuns template)[i]? = some run → groups[i]? = some group →
              group.length = run)) ∧
      (∀ text, render strict groups rest hasRest template = .ok text →
        text = String.ofList (cut.fill
          (if hasRest.getD rest.isSome then (rest.getD "").toList else ['Z']) groups)) ∧
      (∀ e, render strict groups rest hasRest template = .error e ↔
        ∃ i, FirstMisfit strict (placeholderRuns template) groups i ∧
          Reported (placeholderRuns template) groups i e) ∧
      ∀ text, render true groups rest hasRest template = .ok text →
        render false groups rest hasRest template = .ok text := by
  refine ⟨_, fun c => TemplateCut.cuts_iff, placeholderRuns_eq_lengths template,
    placeholderRuns_eq_countRuns template (by decide), ?_,
    exists_render_iff strict groups rest hasRest template,
    fun text => eq_fill_of_render strict groups rest hasRest template,
    fun e => render_eq_error_iff strict groups rest hasRest template,
    fun text => render_lenient⟩
  rw [← Filling.write_eq_scan]
  rfl

/-- What is put in is not read as template again. -/
example : render true ["12", "$Z"] (some "9") none "($$) $$-Z" = .ok "(12) $Z-9" := by
  decide +kernel

end CallRouting

import CallRouting.Template
import Mathlib.Data.List.Chain

/-!
# The runs of a template

A template is looked through for its runs of `$`, be it to count them or to put groups in at them.

* **The cut** (`TemplateCut.cuts_of`, `TemplateCut.cuts_iff`): a text can be cut at its maximal runs
  of `$`, and in one way only.
* **Parts** (`templateParts_eq`, `placeholderRuns_eq_lengths`): the parts of a template are those of
  its cut, and so are the lengths of its runs.
* **Counting** (`placeholderRuns_eq_countRuns`): counting `$` up to the next other character finds
  these runs, if the template is followed by such a character.
-/

namespace CallRouting

/-! ## Cuts -/

/-- A text cut at runs of `$`: what stands before the first run, and for each run its length and
what stands between it and the next one. -/
structure TemplateCut where
  start : List Char
  runs : List (Nat × List Char)

namespace TemplateCut

/-- Runs and what stands behind them, written out. -/
def runsText (runs : List (Nat × List Char)) : List Char :=
  runs.flatMap fun run => List.replicate run.1 '$' ++ run.2

/-- One more run and what stands behind it. -/
theorem runsText_cons (run : Nat × List Char) (runs : List (Nat × List Char)) :
    runsText (run :: runs) = List.replicate run.1 '$' ++ (run.2 ++ runsText runs) := by
  rw [runsText, List.flatMap_cons, List.append_assoc]
  rfl

/-- The text that is cut. -/
def text (cut : TemplateCut) : List Char := cut.start ++ runsText cut.runs

/-- The lengths of the runs. -/
def lengths (cut : TemplateCut) : List Nat := cut.runs.map (·.1)

/-- Whether the runs are maximal: there is no `$` outside of them, none of them is empty, and
between two of them there is something. -/
structure Maximal (cut : TemplateCut) : Prop where
  start : '$' ∉ cut.start
  run : ∀ run ∈ cut.runs, 0 < run.1 ∧ '$' ∉ run.2
  apart : cut.runs.IsChain fun run _ => run.2 ≠ []

/-- Whether a text is cut at its maximal runs. -/
structure Cuts (cut : TemplateCut) (cs : List Char) : Prop where
  text_eq : cut.text = cs
  maximal : cut.Maximal

/-! ### There is a cut -/

/-- Puts one more `$` in front. -/
def lengthen : TemplateCut → TemplateCut
  | ⟨[], (n, gap) :: runs⟩ => ⟨[], (n + 1, gap) :: runs⟩
  | ⟨start, runs⟩ => ⟨[], (1, start) :: runs⟩

/-- The cut of a text. -/
def of : List Char → TemplateCut
  | [] => ⟨[], []⟩
  | c :: cs =>
    if c = '$' then (of cs).lengthen else ⟨c :: (of cs).start, (of cs).runs⟩

/-- One more `$` lengthens the first run if the text starts with it. -/
theorem lengthen_run (n : Nat) (gap : List Char) (runs : List (Nat × List Char)) :
    lengthen ⟨[], (n, gap) :: runs⟩ = ⟨[], (n + 1, gap) :: runs⟩ := rfl

/-- One more `$` is a run of its own if the text does not start with one. -/
theorem lengthen_of_imp {start : List Char} {runs : List (Nat × List Char)}
    (h : start = [] → runs = []) : lengthen ⟨start, runs⟩ = ⟨[], (1, start) :: runs⟩ := by
  cases start with
  | nil =>
    rw [h rfl]
    rfl
  | cons c start => rfl

/-- A cut either starts with a run, or has a run behind what it starts with only if that is not
empty. -/
theorem starts_cases (cut : TemplateCut) :
    (∃ n gap runs, cut = ⟨[], (n, gap) :: runs⟩) ∨ (cut.start = [] → cut.runs = []) := by
  obtain ⟨start, runs⟩ := cut
  cases runs with
  | nil => exact Or.inr fun _ => rfl
  | cons run runs =>
    cases start with
    | nil => exact Or.inl ⟨run.1, run.2, runs, rfl⟩
    | cons c start => exact Or.inr fun h => by cases h

/-- The text is one `$` longer. -/
theorem text_lengthen (cut : TemplateCut) : cut.lengthen.text = '$' :: cut.text := by
  rcases cut.starts_cases with ⟨n, gap, runs, rfl⟩ | h
  · rfl
  · rw [lengthen_of_imp h]
    rfl

/-- The runs stay maximal. -/
theorem Maximal.lengthen {cut : TemplateCut} (h : cut.Maximal) : cut.lengthen.Maximal := by
  rcases cut.starts_cases with ⟨n, gap, runs, rfl⟩ | hstarts
  · rw [lengthen_run]
    obtain ⟨hrun, hruns⟩ := List.forall_mem_cons.mp h.run
    obtain ⟨hnext, hapart⟩ := List.isChain_cons.mp h.apart
    exact ⟨List.not_mem_nil, List.forall_mem_cons.mpr ⟨⟨Nat.succ_pos n, hrun.2⟩, hruns⟩,
      List.isChain_cons.mpr ⟨hnext, hapart⟩⟩
  · rw [lengthen_of_imp hstarts]
    refine ⟨List.not_mem_nil, List.forall_mem_cons.mpr ⟨⟨Nat.one_pos, h.start⟩, h.run⟩,
      List.isChain_cons.mpr ⟨fun run hrun hnil => ?_, h.apart⟩⟩
    rw [hstarts hnil] at hrun
    cases hrun

/-- **Every text can be cut at its maximal runs.** -/
theorem cuts_of (cs : List Char) : (of cs).Cuts cs := by
  induction cs with
  | nil => exact ⟨rfl, List.not_mem_nil, List.forall_mem_nil _, .nil⟩
  | cons c cs ih =>
    rw [of]
    split_ifs with hc
    · exact ⟨by rw [text_lengthen, ih.text_eq, hc], ih.maximal.lengthen⟩
    · refine ⟨congrArg (c :: ·) ih.text_eq, ?_, ih.maximal.run, ih.maximal.apart⟩
      exact List.not_mem_cons_of_ne_of_not_mem (Ne.symm hc) ih.maximal.start

/-! ### There is one cut only -/

/-- What has no `$` belongs to the start. -/
theorem of_append {start : List Char} (h : '$' ∉ start) (cs : List Char) :
    of (start ++ cs) = ⟨start ++ (of cs).start, (of cs).runs⟩ := by
  induction start with
  | nil => rfl
  | cons c start ih =>
    obtain ⟨hc, hstart⟩ := List.ne_and_not_mem_of_not_mem_cons h
    rw [List.cons_append, of, if_neg (Ne.symm hc), ih hstart, List.cons_append]

/-- A run of `$` that something else follows is one run. -/
theorem of_replicate {cs gap : List Char} {runs : List (Nat × List Char)}
    (hcs : of cs = ⟨gap, runs⟩) (hgap : gap = [] → runs = []) (n : Nat) :
    of (List.replicate (n + 1) '$' ++ cs) = ⟨[], (n + 1, gap) :: runs⟩ := by
  induction n with
  | zero =>
    change (of cs).lengthen = _
    rw [hcs, lengthen_of_imp hgap]
  | succ n ih => rw [List.replicate_succ, List.cons_append, of, if_pos rfl, ih, lengthen_run]

/-- Maximal runs are the runs of their text. -/
theorem of_runsText {runs : List (Nat × List Char)}
    (hrun : ∀ run ∈ runs, 0 < run.1 ∧ '$' ∉ run.2)
    (hapart : runs.IsChain fun run _ => run.2 ≠ []) : of (runsText runs) = ⟨[], runs⟩ := by
  induction runs with
  | nil => rfl
  | cons run runs ih =>
    obtain ⟨n, gap⟩ := run
    obtain ⟨⟨hpos, hgap⟩, hruns⟩ := List.forall_mem_cons.mp hrun
    obtain ⟨hnext, hchain⟩ := List.isChain_cons.mp hapart
    have hlast : gap = [] → runs = [] := fun hnil =>
      List.head?_eq_none_iff.mp (Option.eq_none_iff_forall_ne_some.mpr fun next hhead =>
        hnext next hhead hnil)
    have hbehind : of (gap ++ runsText runs) = ⟨gap, runs⟩ := by
      rw [of_append hgap, ih hruns hchain, List.append_nil]
    obtain ⟨m, rfl⟩ := Nat.exists_eq_succ_of_ne_zero (Nat.pos_iff_ne_zero.mp hpos)
    rw [runsText_cons]
    exact of_replicate hbehind hlast m

/-- **A text can be cut at its maximal runs in exactly one way.** -/
theorem cuts_iff {cut : TemplateCut} {cs : List Char} : cut.Cuts cs ↔ cut = of cs := by
  constructor
  · rintro ⟨rfl, hmaximal⟩
    rw [text, of_append hmaximal.start, of_runsText hmaximal.run hmaximal.apart, List.append_nil]
  · rintro rfl
    exact cuts_of cs

/-! ### Parts -/

/-- The part that a character outside the runs is. -/
def part (c : Char) : TemplatePart := if c = 'Z' then .restMark else .plain c

/-- The parts of runs and of what stands behind them. -/
def runsParts (runs : List (Nat × List Char)) : List TemplatePart :=
  runs.flatMap fun run => .run run.1 :: run.2.map part

/-- The parts of one more run. -/
theorem runsParts_cons (run : Nat × List Char) (runs : List (Nat × List Char)) :
    runsParts (run :: runs) = .run run.1 :: (run.2.map part ++ runsParts runs) := rfl

/-- The parts of a cut. -/
def parts (cut : TemplateCut) : List TemplatePart := cut.start.map part ++ runsParts cut.runs

/-- A part that is no run stays as it is behind one more `$`. -/
theorem lengthen_part (c : Char) (ps : List TemplatePart) :
    TemplatePart.lengthen (part c :: ps) = .run 1 :: part c :: ps := by
  unfold part
  split_ifs <;> rfl

/-- The parts with one more `$` in front. -/
theorem parts_lengthen (cut : TemplateCut) :
    cut.lengthen.parts = TemplatePart.lengthen cut.parts := by
  obtain ⟨start, runs⟩ := cut
  cases start with
  | nil => cases runs <;> rfl
  | cons c start => exact (lengthen_part c _).symm

/-- A part that is no run has no length. -/
theorem runLength?_part (c : Char) : (part c).runLength? = none := by
  unfold part
  split_ifs <;> rfl

/-- The lengths of the runs among the parts. -/
theorem filterMap_parts (cut : TemplateCut) :
    cut.parts.filterMap TemplatePart.runLength? = cut.lengths := by
  have hplain : ∀ cs : List Char, (cs.map part).filterMap TemplatePart.runLength? = [] :=
    fun cs => by simp [List.filterMap_map, runLength?_part]
  have hruns : ∀ runs, (runsParts runs).filterMap TemplatePart.runLength? = runs.map (·.1) := by
    intro runs
    induction runs with
    | nil => rfl
    | cons run runs ih => simp [runsParts_cons, TemplatePart.runLength?, hplain, ih]
  rw [parts, List.filterMap_append, hplain, hruns, List.nil_append, lengths]

end TemplateCut

/-- **The parts of a template are those of its cut.** -/
theorem templateParts_eq (cs : List Char) : templateParts cs = (TemplateCut.of cs).parts := by
  induction cs with
  | nil => rfl
  | cons c cs ih =>
    rw [templateParts, TemplateCut.of, ih]
    by_cases hc : c = '$'
    · rw [if_pos hc, if_pos hc, TemplateCut.parts_lengthen]
    · rw [if_neg hc, if_neg hc]
      change _ = TemplateCut.part c :: _
      unfold TemplateCut.part
      split_ifs <;> rfl

/-- The runs of a template are those of its cut. -/
theorem placeholderRuns_eq_lengths (template : String) :
    placeholderRuns template = (TemplateCut.of template.toList).lengths := by
  rw [placeholderRuns, templateParts_eq, TemplateCut.filterMap_parts]

/-! ## Counting -/

/-- Counts `$` up to the next other character; `count` of them were met just before. A run that
nothing follows is not counted. -/
def countRuns (count : Nat) : List Char → List Nat
  | [] => []
  | c :: cs =>
    if c = '$' then countRuns (count + 1) cs
    else if count = 0 then countRuns 0 cs
    else count :: countRuns 0 cs

/-- What was counted already can be put back in front. -/
theorem countRuns_append {stop : Char} (hstop : stop ≠ '$') (count : Nat) (cs : List Char) :
    countRuns count (cs ++ [stop]) =
      (TemplateCut.of (List.replicate count '$' ++ cs)).lengths := by
  induction cs generalizing count with
  | nil =>
    cases count with
    | zero => simp [countRuns, hstop, TemplateCut.of, TemplateCut.lengths]
    | succ count =>
      have hnil : TemplateCut.of [] = ⟨[], []⟩ := rfl
      rw [TemplateCut.of_replicate hnil (fun _ => rfl)]
      simp [countRuns, hstop, TemplateCut.lengths]
  | cons c cs ih =>
    by_cases hc : c = '$'
    · subst hc
      rw [List.cons_append, countRuns, if_pos rfl, ih, List.replicate_succ', List.append_assoc]
      rfl
    · have hcs : TemplateCut.of (c :: cs) =
          ⟨c :: (TemplateCut.of cs).start, (TemplateCut.of cs).runs⟩ := by
        rw [TemplateCut.of, if_neg hc]
      rw [List.cons_append, countRuns, if_neg hc, ih]
      cases count with
      | zero =>
        rw [if_pos rfl, List.replicate_zero, List.nil_append, List.nil_append, hcs]
        rfl
      | succ count =>
        rw [if_neg (Nat.succ_ne_zero count), TemplateCut.of_replicate hcs (fun h => by cases h)]
        rfl

/-- **Counting up to a mark behind the template finds its runs**, whatever the mark is and whether
the template has it as well. -/
theorem placeholderRuns_eq_countRuns (template : String) {stop : Char} (hstop : stop ≠ '$') :
    placeholderRuns template = countRuns 0 (template.toList ++ [stop]) := by
  rw [placeholderRuns_eq_lengths, countRuns_append hstop]
  rfl

end CallRouting

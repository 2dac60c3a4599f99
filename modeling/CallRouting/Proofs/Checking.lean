import CallRouting.Proofs.Reformatting
import CallRouting.Proofs.Rendering
import CallRouting.Proofs.Routing

/-!
# The check of a template turns nothing away that is of use

The template of a rule is checked before any number is known. What can be said of all numbers then
is how many groups there are and which of them have a fixed length.

* **Every pattern has a text** (`Pattern.exists_fit`): each piece of a pattern that was read stands
  for something, so that the search finds some text that fits.
* **One text is enough** (`checkRuns_of_render`): a template that can be written with what one text
  fills the groups with passes the check. So what is turned away cannot be written with any.
* **All texts** (`checkRuns_eq_ok_iff_forall_render`): if the groups that its runs are put in for
  all have a fixed length, a template passes the check exactly if it can be written with every text.
* **Together** (`Rule.checkTemplate_exact`): the same of the check of a rule and of the numbers that
  are written anew later on, in any session that keeps what the check depends on.
-/

namespace CallRouting

open Exchange (decision Neutral Session)

/-! ## Every pattern has a text -/

namespace Pattern

variable {limits : PatternLimits} {source : String} {p : Pattern}

/-- A class may occur once, whatever its quantifier is. -/
theorem holds_one (q : Option Quantifier) : (Bounds.ofQuantifier? q).Holds 1 := by
  cases q with
  | none => exact ⟨le_rfl, fun high hhigh => (Option.some.inj hhigh).le⟩
  | some q =>
    cases q with
    | oneOrMore => exact ⟨le_rfl, fun high hhigh => by cases hhigh⟩
    | optional => exact ⟨Nat.zero_le _, fun high hhigh => (Option.some.inj hhigh).le⟩
    | anyNumber => exact ⟨Nat.zero_le _, fun high hhigh => by cases hhigh⟩

/-- A well-formed phrase stands for some text. -/
theorem Phrase.exists_admits {u : Phrase} (h : u.WellFormed) (n : Nat) :
    ∃ cs, (u.piece n).Admits cs := by
  cases u with
  | plain c quantifier =>
    refine ⟨[(CharClass.ofToken c).sample '2'], holds_one quantifier, ?_⟩
    intro d hd
    rw [List.mem_singleton.mp hd]
    exact CharClass.holds_sample (Or.inl rfl) _
  | group alternatives =>
    cases alternatives with
    | nil => exact absurd h.1 (by decide)
    | cons a alternatives =>
      refine ⟨(slotsAt (n + 1) a).map fun slot => slot.cls.sample '2', slotsAt (n + 1) a,
        List.mem_cons_self, ?_⟩
      rw [List.forall₂_map_right_iff, List.forall₂_same]
      intro slot _
      exact CharClass.holds_sample (Or.inl rfl) _

/-- Every atom of a layout stands for some text. -/
theorem exists_admits_of_mem_layout {n : Nat} {us : List Phrase} (hus : ∀ u ∈ us, u.WellFormed)
    {a : Atom} (h : a ∈ layout n us) : ∃ cs, a.piece.Admits cs := by
  induction us generalizing n with
  | nil => cases h
  | cons u us ih =>
    obtain ⟨hu, hlater⟩ := List.forall_mem_cons.mp hus
    rcases List.mem_cons.mp h with rfl | h
    · exact u.exists_admits hu n
    · exact ih hlater h

/-- Every piece of a pattern that was read stands for some text. -/
theorem exists_admits_of_mem_pieces (h : parse limits source = .ok p) {piece : Piece}
    (hpiece : piece ∈ p.pieces) : ∃ cs, piece.Admits cs := by
  obtain ⟨-, us, -, hus, -, rfl⟩ := parse_eq_ok_iff.mp h
  rw [pieces_ofPhrases, atomsOf, List.mem_map] at hpiece
  obtain ⟨a, ha, rfl⟩ := hpiece
  rw [List.mem_reverse] at ha
  rcases markRest_cases (layout 0 us).reverse with heq | ⟨position, group, before, heq, hmark⟩
  · rw [heq, List.mem_reverse] at ha
    exact exists_admits_of_mem_layout hus.wellFormed ha
  · rw [hmark] at ha
    rcases List.mem_cons.mp ha with rfl | ha
    · exact ⟨[], trivial⟩
    · have hlayout : a ∈ layout 0 us := by
        rw [← List.mem_reverse, heq]
        exact List.mem_cons_of_mem _ ha
      exact exists_admits_of_mem_layout hus.wellFormed hlayout

/-- Pieces that stand for something can take some text. -/
theorem exists_cuttable {ps : List Piece} (h : ∀ piece ∈ ps, ∃ cs, piece.Admits cs) :
    ∃ cs, Cuttable ps cs := by
  induction ps with
  | nil => exact ⟨[], cuttable_nil_iff.mpr rfl⟩
  | cons piece ps ih =>
    obtain ⟨⟨u, hu⟩, hlater⟩ := List.forall_mem_cons.mp h
    obtain ⟨v, hv⟩ := ih hlater
    exact ⟨u ++ v, cuttable_cons_iff.mpr ⟨u, v, rfl, hu, hv⟩⟩

/-- **Some text fits every pattern that was read.** -/
theorem exists_fit (h : parse limits source = .ok p) : ∃ text f, p.fit? text = some f := by
  obtain ⟨cs, hcs⟩ := exists_cuttable fun piece => exists_admits_of_mem_pieces h
  have hfits : p.fits (String.ofList cs) = true := by
    rw [fits_iff (restLast_of_parse h), String.toList_ofList]
    exact hcs
  exact ⟨String.ofList cs, Option.isSome_iff_exists.mp hfits⟩

/-- Whether the groups that the runs of a template are put in for all have a fixed length. -/
def FixesRuns (p : Pattern) (template : String) : Prop :=
  ∀ length ∈ p.groupLengths.take (placeholderRuns template).length, length ≠ none

instance (p : Pattern) (template : String) : Decidable (p.FixesRuns template) :=
  inferInstanceAs (Decidable (∀ length ∈ _, length ≠ none))

end Pattern

/-! ## The check -/

variable {settings : Settings} {source template number : String} {p : Pattern} {f : Pattern.Fit}
  {strict : Bool}

/-- **A template that can be written with the captures of one text passes the check.** -/
theorem checkRuns_of_render {limits : PatternLimits} (hp : Pattern.parse limits source = .ok p)
    (hf : p.fit? number = some f) {text : String}
    (h : render strict f.groups f.rest (some p.hasRest) template = .ok text) :
    checkRuns strict p template = .ok () := by
  obtain ⟨hcount, hlengths⟩ := (exists_render_iff _ _ _ _ _).mp ⟨text, h⟩
  have hgroups := Pattern.length_groups_of_fit? (Pattern.restLast_of_parse hp) hf
  refine checkRuns_eq_ok_iff.mpr ⟨by omega, ?_⟩
  intro hstrict i run length hrun hlength
  have hi : i < p.groupCount := by
    rw [← p.length_groupLengths]
    exact (List.getElem?_eq_some_iff.mp hlength).1
  have hfixed : p.groupLength i = some length := by
    simpa [Pattern.groupLengths_eq, hi] using hlength
  obtain ⟨group, hgroup⟩ : ∃ group, f.groups[i]? = some group :=
    ⟨_, List.getElem?_eq_getElem (hgroups ▸ hi)⟩
  rw [← hlengths hstrict i run _ hrun hgroup]
  exact Pattern.length_capture_of_fit? hp hf hfixed hgroup

/-- A template that passes the check can be written with the captures of every text, if its groups
have fixed lengths. -/
theorem render_of_checkRuns {limits : PatternLimits} (hp : Pattern.parse limits source = .ok p)
    (hfixed : p.FixesRuns template) (hcheck : checkRuns strict p template = .ok ())
    (hf : p.fit? number = some f) :
    ∃ text, render strict f.groups f.rest (some p.hasRest) template = .ok text := by
  cases hrender : render strict f.groups f.rest (some p.hasRest) template with
  | ok text => exact ⟨text, rfl⟩
  | error e =>
    obtain ⟨-, i, run, group, hrun, hgroup, -, -, a, ha, hvaries⟩ :=
      render_error_of_checkRuns hp hcheck id hf hrender
    have hi : i < p.groupCount := by
      rw [← Pattern.length_groups_of_fit? (Pattern.restLast_of_parse hp) hf]
      exact (List.getElem?_eq_some_iff.mp hgroup).1
    have hfew : i < (placeholderRuns template).length := (List.getElem?_eq_some_iff.mp hrun).1
    have hmem : p.groupLength i ∈ p.groupLengths.take (placeholderRuns template).length := by
      refine List.mem_of_getElem? (i := i) ?_
      rw [List.getElem?_take_of_lt hfew]
      simp [Pattern.groupLengths_eq, hi]
    obtain ⟨k, hk⟩ := Option.ne_none_iff_exists'.mp (hfixed _ hmem)
    exact absurd ((Pattern.groupLength_eq_some_iff.mp hk).1 a ha) hvaries

/-- **What passes the check**, if the groups of a template have fixed lengths: it passes exactly if
it can be written with the captures of every text. -/
theorem checkRuns_eq_ok_iff_forall_render {limits : PatternLimits}
    (hp : Pattern.parse limits source = .ok p) (hfixed : p.FixesRuns template) :
    checkRuns strict p template = .ok () ↔
      ∀ number f, p.fit? number = some f →
        ∃ text, render strict f.groups f.rest (some p.hasRest) template = .ok text := by
  constructor
  · intro hcheck number f hf
    exact render_of_checkRuns hp hfixed hcheck hf
  · intro hall
    obtain ⟨number, f, hf⟩ := Pattern.exists_fit hp
    obtain ⟨text, htext⟩ := hall number f hf
    exact checkRuns_of_render hp hf htext

/-! ## Rules -/

namespace Rule

variable {r : Rule}

/-- What the check of an outbound rule with a number pattern and a template says. -/
theorem decision_checkTemplate (hdirection : r.direction = .outbound)
    (hopen : RoutePattern.isOpen r.receiverAddress = false)
    (hp : Pattern.parse settings.limits r.receiverAddress = .ok p)
    (htemplate : r.template = some template) :
    decision settings r.checkTemplate = .ok (checkRuns settings.strictTemplates p template) := by
  have hlet : ¬ r.direction ≠ .outbound := not_not.mpr hdirection
  have hclosed : ¬ RoutePattern.isOpen r.receiverAddress = true := by
    rw [hopen]
    decide
  rw [checkTemplate, htemplate]
  simp only [Exchange.decision_bind, Exchange.decision_settingsNow, Exchange.decision_ask,
    Exchange.decision_pure, Exchange.ok_bind, hp, if_neg hlet, if_neg hclosed]

/-- **What a text that is found to fit is written as**, and that there is room for it. -/
theorem decision_transform_of_fits (hp : Pattern.parse settings.limits source = .ok p)
    (hfits : decision settings (Exchange.fits source number) = .ok true) :
    p.atoms.length ≤ settings.limits.room ∧ ∃ f, p.fit? number = some f ∧
      ∀ strict template, decision settings (Exchange.transform strict number source template) =
        (render strict f.groups f.rest (some p.hasRest) template).mapError .template := by
  obtain ⟨hfew, f, hf⟩ := Pattern.exists_fit?_of_decision hp hfits
  exact ⟨hfew, f, hf, Pattern.decision_transform_of_fit? hp hfew hf⟩

/-- What is turned away fails on every number that is found to fit. -/
theorem decision_transform_eq_error (hp : Pattern.parse settings.limits source = .ok p)
    (hcheck : checkRuns strict p template ≠ .ok ())
    (hfits : decision settings (Exchange.fits source number) = .ok true) :
    ∃ e, decision settings (Exchange.transform strict number source template) =
      .error (.template e) := by
  obtain ⟨-, f, hf, htransform⟩ := decision_transform_of_fits hp hfits
  rw [htransform]
  cases hrender : render strict f.groups f.rest (some p.hasRest) template with
  | ok text => exact absurd (checkRuns_of_render hp hf hrender) hcheck
  | error e => exact ⟨e, rfl⟩

/-- What is let through is written for every number that is found to fit, and only that is, if the
groups have fixed lengths and there is room for the pattern. -/
theorem checkRuns_eq_ok_iff_forall_transform (hp : Pattern.parse settings.limits source = .ok p)
    (hfixed : p.FixesRuns template) (hfew : p.atoms.length ≤ settings.limits.room) :
    checkRuns strict p template = .ok () ↔
      ∀ number, decision settings (Exchange.fits source number) = .ok true →
        ∃ text, decision settings (Exchange.transform strict number source template) =
          .ok text := by
  rw [checkRuns_eq_ok_iff_forall_render hp hfixed]
  constructor
  · intro hall number hfits
    obtain ⟨-, f, hf, htransform⟩ := decision_transform_of_fits hp hfits
    obtain ⟨text, htext⟩ := hall number f hf
    rw [htransform, htext]
    exact ⟨text, rfl⟩
  · intro hall number f hf
    have hfits : decision settings (Exchange.fits source number) = .ok true := by
      rw [decision_fits_of_few hp hfew, Pattern.fits, hf]
      rfl
    obtain ⟨text, htext⟩ := hall number hfits
    rw [Pattern.decision_transform_of_fit? hp hfew hf] at htext
    exact ⟨text, Exchange.mapError_eq_ok_iff.mp htext⟩

/-- **The check of a template turns nothing away that is of use.** An outbound rule has a number
pattern that can be read and a template. In every session that keeps the limits of patterns and the
strictness of templates, its check says the same at every moment. If it turns the rule away, writing
fails, for the template, for every number that is found to fit the pattern, at every moment of the
session. If the groups that the runs are put in for all have a fixed length, the check lets the rule
through exactly if the template can be written with the captures of every text that fits; and, with
room for the pattern, exactly if writing succeeds for every number that is found to fit. With more
atoms than there is room for, both finding out whether a text fits and writing it anew fail for lack
of room, for every text that fits. -/
theorem checkTemplate_exact (hdirection : r.direction = .outbound)
    (hopen : RoutePattern.isOpen r.receiverAddress = false)
    (hp : Pattern.parse settings.limits r.receiverAddress = .ok p)
    (htemplate : r.template = some template) :
    ∃ verdict, (∀ x, Session Settings.checks (Exchange.start settings) x →
        (r.checkTemplate x).1 = .ok verdict) ∧
      (verdict ≠ .ok () → ∀ y, Session Settings.checks (Exchange.start settings) y →
        ∀ number, (Exchange.fits r.receiverAddress number y).1 = .ok true →
          ∃ e, (Exchange.transform settings.strictTemplates number r.receiverAddress template y).1 =
            .error (.template e)) ∧
      (p.FixesRuns template →
        (verdict = .ok () ↔ ∀ number f, p.fit? number = some f →
          ∃ text, render settings.strictTemplates f.groups f.rest (some p.hasRest) template =
            .ok text) ∧
        (p.atoms.length ≤ settings.limits.room →
          ∀ y, Session Settings.checks (Exchange.start settings) y →
            (verdict = .ok () ↔
              ∀ number, (Exchange.fits r.receiverAddress number y).1 = .ok true →
                ∃ text, (Exchange.transform settings.strictTemplates number r.receiverAddress
                  template y).1 = .ok text))) ∧
      (settings.limits.room < p.atoms.length →
        ∀ y, Session Settings.checks (Exchange.start settings) y →
          ∀ number f, p.fit? number = some f →
            (Exchange.fits r.receiverAddress number y).1 = .error .tooDeep ∧
            (Exchange.transform settings.strictTemplates number r.receiverAddress template y).1 =
              .error .tooDeep) := by
  have hfaithful : ∀ y, Session Settings.checks (Exchange.start settings) y → y.Faithful := by
    intro y hy
    exact hy.faithful (fun _ _ h => congrArg Prod.fst h) (Exchange.faithful_start settings)
  have hlimits : ∀ y, Session Settings.checks (Exchange.start settings) y →
      y.settings.limits = settings.limits := by
    intro y hy
    exact congrArg Prod.fst hy.kept_eq
  have hread : ∀ y, Session Settings.checks (Exchange.start settings) y →
      Pattern.parse y.settings.limits r.receiverAddress = .ok p := by
    intro y hy
    rw [hlimits y hy]
    exact hp
  refine ⟨checkRuns settings.strictTemplates p template, ?_, ?_, ?_, ?_⟩
  · intro x hx
    have hstrict : x.settings.strictTemplates = settings.strictTemplates :=
      congrArg Prod.snd hx.kept_eq
    rw [Neutral.answer x (hfaithful x hx), ← hstrict]
    exact decision_checkTemplate hdirection hopen (hread x hx) htemplate
  · intro hcheck y hy number hfits
    rw [Neutral.answer y (hfaithful y hy)] at hfits ⊢
    exact decision_transform_eq_error (hread y hy) hcheck hfits
  · intro hfixed
    refine ⟨checkRuns_eq_ok_iff_forall_render hp hfixed, ?_⟩
    intro hfew y hy
    rw [← hlimits y hy] at hfew
    simp only [Neutral.answer y (hfaithful y hy)]
    exact checkRuns_eq_ok_iff_forall_transform (hread y hy) hfixed hfew
  · intro hmany y hy number f hf
    rw [← hlimits y hy] at hmany
    rw [Neutral.answer y (hfaithful y hy), Neutral.answer y (hfaithful y hy)]
    obtain ⟨hdeep, hwrite⟩ := Pattern.decision_of_tooDeep (hread y hy) hmany hf
    exact ⟨hdeep, hwrite settings.strictTemplates template⟩

/-- An outbound rule with a pattern and a template. -/
def templated (source template : String) : Rule :=
  ⟨"local", "", .outbound, "SIP", "", "*", source, some template⟩

/-- Two runs as long as the two groups are let through and used; the other way round they are turned
away, and of no use for any number. -/
theorem checkTemplate_exact_sevenDigits :
    (∀ number, (Exchange.fits "NxxXXXX" number (Exchange.start {})).1 = .ok true →
        ∃ text, (Exchange.transform true number "NxxXXXX" "$$$-$$$$" (Exchange.start {})).1 =
          .ok text) ∧
      ∀ number, (Exchange.fits "NxxXXXX" number (Exchange.start {})).1 = .ok true →
        ∃ e, (Exchange.transform true number "NxxXXXX" "$$$$-$$$" (Exchange.start {})).1 =
          .error (.template e) := by
  obtain ⟨p, hp, hlengths, hfew⟩ : ∃ p, Pattern.parse ({} : Settings).limits "NxxXXXX" = .ok p ∧
      p.groupLengths = [some 3, some 4] ∧
      p.atoms.length ≤ ({} : Settings).limits.room :=
    ⟨_, rfl, rfl, by decide⟩
  have hopen : RoutePattern.isOpen "NxxXXXX" = false := by decide
  have hfixed : p.FixesRuns "$$$-$$$$" := by
    rw [Pattern.FixesRuns, hlengths]
    decide
  obtain ⟨verdict, hverdict, -, hexact, -⟩ :=
    checkTemplate_exact (r := templated "NxxXXXX" "$$$-$$$$") rfl hopen hp rfl
  obtain ⟨verdict', hverdict', hturned, -⟩ :=
    checkTemplate_exact (r := templated "NxxXXXX" "$$$$-$$$") rfl hopen hp rfl
  have hlet : ((templated "NxxXXXX" "$$$-$$$$").checkTemplate (Exchange.start {})).1 =
      .ok (.ok ()) := by
    decide +kernel
  have haway : ((templated "NxxXXXX" "$$$$-$$$").checkTemplate (Exchange.start {})).1 =
      .ok (.error (.runLength 0 4 "NxxXXXX" 3)) := by
    decide +kernel
  constructor
  · rw [hverdict _ .refl] at hlet
    exact ((hexact hfixed).2 hfew _ .refl).mp (Except.ok.inj hlet)
  · apply hturned _ _ .refl
    rw [hverdict' _ .refl] at haway
    rw [Except.ok.inj haway]
    decide

/-- Three thousand digits have no group, so that a template with a run is turned away. They fit
themselves, and writing them fails for lack of room and not for the template; no number is found to
fit. -/
theorem checkTemplate_exact_tooDeep :
    ((templated (String.ofList (List.replicate 3000 '1')) "$").checkTemplate
        (Exchange.start { maxPatternLength := 10000 })).1 =
        .ok (.error (.tooManyRuns 0 (String.ofList (List.replicate 3000 '1')))) ∧
      (∃ p, Pattern.parse ({ maxPatternLength := 10000 } : Settings).limits
          (String.ofList (List.replicate 3000 '1')) = .ok p ∧
        p.fits (String.ofList (List.replicate 3000 '1')) = true) ∧
      (Exchange.transform true (String.ofList (List.replicate 3000 '1'))
        (String.ofList (List.replicate 3000 '1')) "$"
        (Exchange.start { maxPatternLength := 10000 })).1 = .error .tooDeep ∧
      ∀ number, (Exchange.fits (String.ofList (List.replicate 3000 '1')) number
        (Exchange.start { maxPatternLength := 10000 })).1 ≠ .ok true := by
  have hlen : ((3000 : Nat) : Int) ≤
      ({ maxPatternLength := 10000 } : Settings).limits.maxLength := by
    decide
  have hroom : ({ maxPatternLength := 10000 } : Settings).limits.room < 3000 := by decide
  obtain ⟨p, hp, -, hletters, -, hlong⟩ :=
    Pattern.isMask_replicate (n := 3000) (by decide) hlen
  obtain ⟨q, hq, hcut, -⟩ := Pattern.fitTo_replicate (c := '1') (n := 3000) (by decide)
    (by decide) hroom hlen
  obtain rfl := Except.ok.inj (hp.symm.trans hq)
  have hopen := RoutePattern.isOpen_eq_false (DialPlan.ofString_replicate (n := 3000) (by decide))
  generalize String.ofList (List.replicate 3000 '1') = number at *
  have hnone : p.groupCount = 0 := by
    simpa [Pattern.groupLetters] using hletters
  have hmany : ({ maxPatternLength := 10000 } : Settings).limits.room < p.atoms.length := by
    rw [hlong]
    exact hroom
  have hfits : p.fits number = true :=
    (Pattern.fits_iff (Pattern.restLast_of_parse hp) number).mpr hcut
  obtain ⟨f, hf⟩ := Option.isSome_iff_exists.mp hfits
  have hread : Pattern.parse ({ maxPatternLength := 10000 } : Settings).limits number = .ok p := hp
  have hstart := Exchange.faithful_start { maxPatternLength := 10000 }
  refine ⟨?_, ⟨p, hp, hfits⟩, ?_, ?_⟩
  · have hcheck : checkRuns true p "$" = .error (.tooManyRuns 0 number) := by
      rw [checkRuns, hnone, Pattern.source_of_parse hp]
      rfl
    rw [Neutral.answer _ hstart, ← hcheck]
    exact decision_checkTemplate rfl hopen hread rfl
  · rw [Neutral.answer _ hstart]
    exact (Pattern.decision_of_tooDeep hread hmany hf).2 true "$"
  · intro text htext
    rw [Neutral.answer _ hstart] at htext
    exact absurd ((decision_fits_eq_true_iff hread).mp htext).1 (Nat.not_le.mpr hmany)

end Rule

end CallRouting

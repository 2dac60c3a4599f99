import CallRouting.Proofs.Foreign
import CallRouting.Proofs.Outcomes

/-!
# Which patterns are local to one area

A national number is local if the pattern of its route has at least four leading digits, unless its
area code is toll-free. Whether that pins the route to an area code is another matter: the digits
are counted beyond letters that stand for any digit, and whatever the length of the country code.

* **Classes** (`CallClass.ofDigits_national`): the class of a national number, by its area code and
  the count of leading digits.
* **Areas** (`Switch.LocalToOneArea`, `Switch.localToOneArea_iff_takes`): a pattern is local to one
  area if all numbers that it makes local have one area code. With at least four leading digits
  these are all the national numbers that it takes, but for toll-free ones.
* **Together** (`Switch.localToOneArea_iff`): a stem of at least four digits that meets the country
  code is local to one area exactly if it reaches to the end of the area code, and a pattern that
  starts with classes without quantifiers exactly if its area code is written in digits.
-/

namespace CallRouting

open Exchange (Neutral Session)

/-! ## Classes of national numbers -/

namespace CallClass

/-- The class of a national number with its country code. -/
theorem ofDigits_national {code ds : List Char} (hcode : code ≠ [])
    (hlength : ds.length = Number.nationalLength) (pattern : String) :
    ofDigits code (code ++ ds) pattern =
      if String.ofList (ds.take 3) ∈ Settings.tollFreeAreaCodes then .tollFree
      else if 4 ≤ leadingDigits pattern then .localCall
      else .longDistance := by
  have hpos : 0 < code.length := List.length_pos_iff.mpr hcode
  have hten : ds.length = 10 := hlength
  have hlong : (code ++ ds).length = 10 + code.length := by
    rw [List.length_append, hten, Nat.add_comm]
  have hshort : ¬ ((code ++ ds).length = 7 ∨ (code ++ ds).length = Number.nationalLength) := by
    rw [hlong, Number.nationalLength]
    omega
  have hnational : isNational code (code ++ ds) = true := by
    simp [isNational, Number.nationalLength, hten, Nat.add_comm, List.isPrefixOf_iff_prefix]
  have harea : areaCode code (code ++ ds) = ds.take 3 := by
    rw [areaCode, List.drop_left]
  rw [ofDigits, if_neg hshort, if_pos hnational, harea]

/-- The leading digits of a stem are all of it. -/
theorem leadingDigits_stem {stem : List Char} (hdigits : ∀ c ∈ stem, Text.isDigit c = true) :
    leadingDigits (String.ofList (stem ++ ['*'])) = stem.length := by
  have htake : (stem ++ ['*']).takeWhile (fun c => Text.isDigit c || standsForDigit c) = stem := by
    rw [List.takeWhile_append_of_pos fun c hc => by rw [hdigits c hc, Bool.true_or]]
    rw [List.takeWhile_cons_of_neg (by decide), List.append_nil]
  rw [leadingDigits, String.toList_ofList, htake, List.countP_eq_length]
  exact hdigits

/-- No area code with a 2 or a 9 is toll-free. -/
theorem not_tollFree_of_mem {area : List Char} {c : Char} (hc : c = '2' ∨ c = '9')
    (h : c ∈ area) : String.ofList area ∉ Settings.tollFreeAreaCodes := by
  intro hmem
  have hnone : ∀ code ∈ Settings.tollFreeAreaCodes, '2' ∉ code.toList ∧ '9' ∉ code.toList := by
    decide
  obtain ⟨htwo, hnine⟩ := hnone _ hmem
  rw [String.toList_ofList] at htwo hnine
  rcases hc with rfl | rfl
  · exact htwo h
  · exact hnine h

end CallClass

/-! ## Stems -/

/-- Digits and a star are read as the stem of the digits. -/
theorem RoutePattern.ofString_stem {stem : List Char} (hne : stem ≠ [])
    (hdigits : ∀ c ∈ stem, Text.isDigit c = true) :
    ofString (String.ofList (stem ++ ['*'])) = .stem stem := by
  have hempty : stem.reverse.isEmpty = false := by
    simpa using hne
  have hall : stem.reverse.all Text.isDigit = true := by
    simpa using hdigits
  have hreversed : (stem ++ ['*']).reverse = '*' :: stem.reverse := by
    rw [List.reverse_append]
    rfl
  unfold ofString
  rw [String.toList_ofList, hreversed]
  change (if stem.reverse.isEmpty then _ else if stem.reverse.all Text.isDigit then _ else _) = _
  rw [hempty, hall, List.reverse_reverse]
  rfl

/-! ## Areas -/

namespace Switch

open RoutePattern (Covers Overruns)

variable {s : Switch} {settings : Settings} {pattern : String} {ds : List Char}

/-- Whether a route's pattern takes the national number with these ten digits. -/
structure Takes (s : Switch) (limits : PatternLimits) (pattern : String) (ds : List Char) :
    Prop where
  length : ds.length = Number.nationalLength
  digits : ∀ c ∈ ds, Text.isDigit c = true
  covers : Covers limits pattern (String.ofList (s.countryCode.toList ++ ds))
  room : ¬ Overruns limits pattern (String.ofList (s.countryCode.toList ++ ds))

/-- Whether a destination is the national number with these ten digits, and a route's pattern takes
it and makes it local. -/
structure TakesLocally (s : Switch) (pattern destination : String) (ds : List Char)
    (x : Exchange) : Prop where
  national : (s.digitsOf x.settings destination).toList = s.countryCode.toList ++ ds
  length : ds.length = Number.nationalLength
  digits : ∀ c ∈ ds, Text.isDigit c = true
  taken : (accepts pattern (s.digitsOf x.settings destination) x).1 = .ok true
  isLocal : s.classify (s.normalize x.settings destination) pattern = .localCall

/-- Whether all national numbers that a pattern takes and makes local have one area code, whatever
was asked before, as long as the limits of patterns stay. -/
def LocalToOneArea (s : Switch) (settings : Settings) (pattern : String) : Prop :=
  ∀ x y, Session Settings.limits (Exchange.start settings) x →
    Session Settings.limits (Exchange.start settings) y →
    ∀ destination destination' ds ds', s.TakesLocally pattern destination ds x →
      s.TakesLocally pattern destination' ds' y → ds.take 3 = ds'.take 3

/-- **Which national numbers are local.** -/
theorem classify_national_eq_local_iff {number : String} (hcode : s.countryCode.toList ≠ [])
    (hnational : (Number.digits number).toList = s.countryCode.toList ++ ds)
    (hlength : ds.length = Number.nationalLength) :
    s.classify number pattern = .localCall ↔
      4 ≤ CallClass.leadingDigits pattern ∧
        String.ofList (ds.take 3) ∉ Settings.tollFreeAreaCodes := by
  rw [classify, CallClass.ofNumber, hnational, CallClass.ofDigits_national hcode hlength]
  split_ifs with hfree hlead
  · simp [hfree]
  · simp [hfree, hlead]
  · simp [hlead]

/-- What it takes for a national number to be taken and made local. -/
theorem takesLocally_iff {x : Exchange} {destination : String}
    (hx : Session Settings.limits (Exchange.start settings) x)
    (hcode : s.countryCode.toList ≠ []) :
    s.TakesLocally pattern destination ds x ↔
      s.digitsOf x.settings destination = String.ofList (s.countryCode.toList ++ ds) ∧
        s.Takes settings.limits pattern ds ∧ 4 ≤ CallClass.leadingDigits pattern ∧
          String.ofList (ds.take 3) ∉ Settings.tollFreeAreaCodes := by
  have hfaithful : x.Faithful := hx.faithful (fun _ _ h => h) (Exchange.faithful_start settings)
  have hlimits : x.settings.limits = settings.limits := hx.kept_eq
  have haccepts : ∀ digits, (accepts pattern digits x).1 = .ok true ↔
      Covers settings.limits pattern digits ∧ ¬ Overruns settings.limits pattern digits := by
    intro digits
    rw [Neutral.answer x hfaithful, RoutePattern.decision_accepts_eq_true_iff, hlimits]
  constructor
  · rintro ⟨hnational, hlength, hdigits, htaken, hlocal⟩
    have heq : s.digitsOf x.settings destination =
        String.ofList (s.countryCode.toList ++ ds) := by
      rw [← hnational, String.ofList_toList]
    obtain ⟨hcovers, hroom⟩ := (haccepts _).mp htaken
    rw [heq] at hcovers hroom
    exact ⟨heq, ⟨hlength, hdigits, hcovers, hroom⟩,
      (classify_national_eq_local_iff hcode hnational hlength).mp hlocal⟩
  · rintro ⟨heq, ⟨hlength, hdigits, hcovers, hroom⟩, hlocal⟩
    have hnational : (s.digitsOf x.settings destination).toList =
        s.countryCode.toList ++ ds := by
      rw [heq, String.toList_ofList]
    refine ⟨hnational, hlength, hdigits, ?_, ?_⟩
    · rw [heq]
      exact (haccepts _).mpr ⟨hcovers, hroom⟩
    · exact (classify_national_eq_local_iff hcode hnational hlength).mpr hlocal

/-- A national number is dialled as a plus sign and its digits behind the country code. -/
theorem digitsOf_national (hdigits : ∀ c ∈ s.countryCode.toList, Text.isDigit c = true)
    (hds : ∀ c ∈ ds, Text.isDigit c = true) :
    s.digitsOf settings (String.ofList ('+' :: (s.countryCode.toList ++ ds))) =
      String.ofList (s.countryCode.toList ++ ds) := by
  have hall : ∀ c ∈ s.countryCode.toList ++ ds, Text.isDigit c = true :=
    List.forall_mem_append.mpr ⟨hdigits, hds⟩
  rw [digitsOf, normalize_plus hall, Number.digits_plus hall]

/-- **A pattern is local to one area** if it has few leading digits, or if all national numbers that
it takes have one area code, but for toll-free ones. -/
theorem localToOneArea_iff_takes (hcode : s.countryCode.toList ≠ [])
    (hdigits : ∀ c ∈ s.countryCode.toList, Text.isDigit c = true) :
    s.LocalToOneArea settings pattern ↔
      CallClass.leadingDigits pattern < 4 ∨
        ∀ ds ds', s.Takes settings.limits pattern ds → s.Takes settings.limits pattern ds' →
          String.ofList (ds.take 3) ∉ Settings.tollFreeAreaCodes →
          String.ofList (ds'.take 3) ∉ Settings.tollFreeAreaCodes → ds.take 3 = ds'.take 3 := by
  constructor
  · intro hone
    by_cases hfew : CallClass.leadingDigits pattern < 4
    · exact Or.inl hfew
    · refine Or.inr ?_
      intro ds ds' hds hds' hfree hfree'
      have hlead : 4 ≤ CallClass.leadingDigits pattern := Nat.not_lt.mp hfew
      have hlocal := (takesLocally_iff .refl hcode).mpr
        ⟨digitsOf_national hdigits hds.digits, hds, hlead, hfree⟩
      have hlocal' := (takesLocally_iff .refl hcode).mpr
        ⟨digitsOf_national hdigits hds'.digits, hds', hlead, hfree'⟩
      exact hone _ _ .refl .refl _ _ ds ds' hlocal hlocal'
  · intro h x y hx hy destination destination' ds ds' hlocal hlocal'
    obtain ⟨-, hds, hlead, hfree⟩ := (takesLocally_iff hx hcode).mp hlocal
    obtain ⟨-, hds', -, hfree'⟩ := (takesLocally_iff hy hcode).mp hlocal'
    rcases h with hfew | hone
    · omega
    · exact hone ds ds' hds hds' hfree hfree'

/-- Of two numbers that a pattern takes, with a 2 and a 9 at one place of their area codes, one is
outside of the area of the other. -/
theorem not_localToOneArea (hcode : s.countryCode.toList ≠ [])
    (hdigits : ∀ c ∈ s.countryCode.toList, Text.isDigit c = true)
    (hlead : 4 ≤ CallClass.leadingDigits pattern) (make : Char → List Char)
    (htakes : ∀ c, c = '2' ∨ c = '9' → s.Takes settings.limits pattern (make c)) (i : Nat)
    (hplace : ∀ c, ((make c).take 3)[i]? = some c) :
    ¬ s.LocalToOneArea settings pattern := by
  intro hone
  have hfree : ∀ c, c = '2' ∨ c = '9' →
      String.ofList ((make c).take 3) ∉ Settings.tollFreeAreaCodes := by
    intro c hc
    exact CallClass.not_tollFree_of_mem hc (List.mem_of_getElem? (hplace c))
  rcases (localToOneArea_iff_takes hcode hdigits).mp hone with hfew | hsame
  · omega
  · have heq := hsame _ _ (htakes '2' (Or.inl rfl)) (htakes '9' (Or.inr rfl))
      (hfree '2' (Or.inl rfl)) (hfree '9' (Or.inr rfl))
    have hplaces := hplace '2'
    rw [heq, hplace '9'] at hplaces
    cases hplaces

/-! ### Stems -/

/-- Which national numbers a stem takes. -/
theorem takes_stem_iff {stem : List Char} (hne : stem ≠ [])
    (hstem : ∀ c ∈ stem, Text.isDigit c = true) (limits : PatternLimits) :
    s.Takes limits (String.ofList (stem ++ ['*'])) ds ↔
      ds.length = Number.nationalLength ∧ (∀ c ∈ ds, Text.isDigit c = true) ∧
        stem <+: s.countryCode.toList ++ ds := by
  have hkind := RoutePattern.ofString_stem hne hstem
  have hopen : RoutePattern.isOpen (String.ofList (stem ++ ['*'])) = true := by
    rw [RoutePattern.isOpen, hkind]
  have hcovers : Covers limits (String.ofList (stem ++ ['*']))
      (String.ofList (s.countryCode.toList ++ ds)) ↔ stem <+: s.countryCode.toList ++ ds := by
    rw [Covers, hkind]
    change stem <+: (String.ofList _).toList ↔ _
    rw [String.toList_ofList]
  constructor
  · rintro ⟨hlength, hds, hcover, -⟩
    exact ⟨hlength, hds, hcovers.mp hcover⟩
  · rintro ⟨hlength, hds, hstarts⟩
    exact ⟨hlength, hds, hcovers.mpr hstarts, (RoutePattern.wellFormed_of_isOpen hopen).2⟩

/-- A stem that reaches to the end of the area code fixes it. -/
theorem take_eq_of_stem {stem code ds ds' : List Char} (hlong : code.length + 3 ≤ stem.length)
    (h : stem <+: code ++ ds) (h' : stem <+: code ++ ds') : ds.take 3 = ds'.take 3 := by
  have key : ∀ ds, stem <+: code ++ ds →
      stem.take (code.length + 3) = code ++ ds.take 3 := by
    rintro ds ⟨left, hleft⟩
    rw [← List.take_length_add_append, ← hleft, List.take_append_of_le_length hlong]
  exact List.append_cancel_left ((key ds h).symm.trans (key ds' h'))

/-- The digits of a stem behind the country code, filled up with one digit. -/
def filledStem (code stem : List Char) (c : Char) : List Char :=
  stem.drop code.length ++ List.replicate (Number.nationalLength - (stem.length - code.length)) c

/-- A stem that ends before the area code does leaves the last digit of it open. -/
theorem getElem?_filledStem {code stem : List Char} (hshort : stem.length < code.length + 3)
    (c : Char) : ((filledStem code stem c).take 3)[2]? = some c := by
  rw [List.getElem?_take_of_lt (by decide), filledStem, List.getElem?_append_right
    (by rw [List.length_drop]; omega), List.getElem?_replicate, if_pos]
  rw [List.length_drop, Number.nationalLength]
  omega

/-- A stem that meets the country code and ends before the area code does takes the numbers that it
is filled up to. -/
theorem takes_filledStem {stem : List Char} (hne : stem ≠ [])
    (hstem : ∀ c ∈ stem, Text.isDigit c = true)
    (hshort : stem.length < s.countryCode.toList.length + 3)
    (hmeets : stem <+: s.countryCode.toList ∨ s.countryCode.toList <+: stem)
    (limits : PatternLimits) {c : Char} (hc : c = '2' ∨ c = '9') :
    s.Takes limits (String.ofList (stem ++ ['*'])) (filledStem s.countryCode.toList stem c) := by
  refine (takes_stem_iff hne hstem limits).mpr ⟨?_, ?_, ?_⟩
  · rw [filledStem, List.length_append, List.length_drop, List.length_replicate,
      Number.nationalLength]
    omega
  · rw [filledStem, List.forall_mem_append]
    constructor
    · intro d hd
      exact hstem d (List.mem_of_mem_drop hd)
    · intro d hd
      rw [List.eq_of_mem_replicate hd]
      rcases hc with rfl | rfl <;> decide
  · rcases hmeets with hinside | ⟨left, rfl⟩
    · exact hinside.trans (List.prefix_append _ _)
    · rw [filledStem, List.drop_left, ← List.append_assoc]
      exact List.prefix_append _ _

/-- **When a stem is local to one area.** -/
theorem localToOneArea_stem_iff (hcode : s.countryCode.toList ≠ [])
    (hdigits : ∀ c ∈ s.countryCode.toList, Text.isDigit c = true) {stem : List Char}
    (hne : stem ≠ []) (hstem : ∀ c ∈ stem, Text.isDigit c = true) :
    s.LocalToOneArea settings (String.ofList (stem ++ ['*'])) ↔
      stem.length < 4 ∨ s.countryCode.toList.length + 3 ≤ stem.length ∨
        ¬ (stem <+: s.countryCode.toList ∨ s.countryCode.toList <+: stem) := by
  constructor
  · intro hone
    by_contra hno
    push Not at hno
    obtain ⟨hlead, hshort, hmeets⟩ := hno
    rw [← CallClass.leadingDigits_stem hstem] at hlead
    exact not_localToOneArea hcode hdigits hlead (filledStem s.countryCode.toList stem)
      (fun c => takes_filledStem hne hstem hshort hmeets settings.limits) 2
      (getElem?_filledStem hshort) hone
  · intro h
    rw [localToOneArea_iff_takes hcode hdigits, CallClass.leadingDigits_stem hstem]
    refine h.imp_right fun hlong ds ds' hds hds' _ _ => ?_
    obtain ⟨-, -, hstarts⟩ := (takes_stem_iff hne hstem _).mp hds
    obtain ⟨-, -, hstarts'⟩ := (takes_stem_iff hne hstem _).mp hds'
    rcases hlong with hlong | hapart
    · exact take_eq_of_stem hlong hstarts hstarts'
    · have hmeets : stem <+: s.countryCode.toList ∨ s.countryCode.toList <+: stem :=
        List.prefix_or_prefix_of_prefix hstarts (List.prefix_append _ _)
      exact absurd hmeets hapart

/-! ### Number patterns -/

/-- Whether classes for the country code and the area code, and the pieces behind them, stand for a
national number part by part. -/
structure FitsByParts (classes : List CharClass) (ps : List Piece) (code ds : List Char) :
    Prop where
  head : List.Forall₂ CharClass.Holds (classes.take code.length) code
  area : List.Forall₂ CharClass.Holds (classes.drop code.length) (ds.take 3)
  rest : Pattern.Cuttable ps (ds.drop 3)

section classes

variable {code : List Char} {classes : List CharClass} {ps : List Piece}

/-- Classes for the country code and the area code take as many digits as there are of them. -/
theorem cuttable_areaCode_iff (hclasses : classes.length = code.length + 3)
    (hlength : ds.length = Number.nationalLength) :
    Pattern.Cuttable (classes.map (Piece.single · none) ++ ps) (code ++ ds) ↔
      FitsByParts classes ps code ds := by
  rw [Pattern.cuttable_append_iff]
  simp only [Pattern.cuttable_singles_iff]
  constructor
  · rintro ⟨u, v, huv, hu, hv⟩
    have hten : ds.length = 10 := hlength
    have hul : u.length = (code ++ ds.take 3).length := by
      rw [← hu.length_eq, hclasses, List.length_append, List.length_take, hten]
      rfl
    have hparts : u ++ v = code ++ ds.take 3 ++ ds.drop 3 := by
      rw [huv, List.append_assoc, List.take_append_drop]
    obtain ⟨rfl, rfl⟩ := List.append_inj hparts hul
    have htake := List.forall₂_take code.length hu
    have hdrop := List.forall₂_drop code.length hu
    rw [List.take_left] at htake
    rw [List.drop_left] at hdrop
    exact ⟨htake, hdrop, hv⟩
  · rintro ⟨hcode, harea, hrest⟩
    refine ⟨code ++ ds.take 3, ds.drop 3, ?_, ?_, hrest⟩
    · rw [List.append_assoc, List.take_append_drop]
    · rw [← List.take_append_drop code.length classes]
      exact List.rel_append hcode harea

/-- Classes with one character each stand for one text. -/
theorem eq_of_literals {us vs : List Char} (hliteral : ∀ cls ∈ classes, ∃ c, cls = .literal c)
    (hus : List.Forall₂ CharClass.Holds classes us)
    (hvs : List.Forall₂ CharClass.Holds classes vs) : us = vs := by
  induction hus generalizing vs with
  | nil => exact (List.forall₂_nil_left_iff.mp hvs).symm
  | @cons cls u classes us hu _ ih =>
    obtain ⟨v, vs, hv, hrest, rfl⟩ := List.forall₂_cons_left_iff.mp hvs
    obtain ⟨⟨c, rfl⟩, hlater⟩ := List.forall_mem_cons.mp hliteral
    have hone : u = v := hu.trans hv.symm
    rw [hone, ih hlater hrest]

/-- Samples of classes that stand for digits are digits. -/
theorem isDigit_of_mem_samples {us : List Char} (h : List.Forall₂ CharClass.Holds classes us)
    (hus : ∀ u ∈ us, Text.isDigit u = true) {c : Char} (hc : Text.isDigit c = true) :
    ∀ d ∈ classes.map (CharClass.sample c), Text.isDigit d = true := by
  induction h with
  | nil => exact List.forall_mem_nil _
  | @cons cls u classes us hu _ ih =>
    obtain ⟨hdigit, hlater⟩ := List.forall_mem_cons.mp hus
    refine List.forall_mem_cons.mpr ⟨?_, ih hlater⟩
    cases cls with
    | literal l =>
      rw [show u = l from hu] at hdigit
      exact hdigit
    | restricted | anyDigit | nextDigit | nonZero | wildcard => exact hc

/-- A national number with the area code replaced by a sample of its classes. -/
def resampled (classes : List CharClass) (code ds : List Char) (c : Char) : List Char :=
  (classes.drop code.length).map (CharClass.sample c) ++ ds.drop 3

/-- The sample is the area code. -/
theorem take_resampled (hclasses : classes.length = code.length + 3) (c : Char) :
    (resampled classes code ds c).take 3 = (classes.drop code.length).map (CharClass.sample c) := by
  apply List.take_left'
  rw [List.length_map, List.length_drop, hclasses]
  omega

/-- Behind the area code nothing is replaced. -/
theorem drop_resampled (hclasses : classes.length = code.length + 3) (c : Char) :
    (resampled classes code ds c).drop 3 = ds.drop 3 := by
  apply List.drop_left'
  rw [List.length_map, List.length_drop, hclasses]
  omega

/-- Classes that stand for a number stand for it with another area code. -/
theorem FitsByParts.resampled (h : FitsByParts classes ps code ds)
    (hclasses : classes.length = code.length + 3) {c : Char} (hc : c = '2' ∨ c = '9') :
    FitsByParts classes ps code (resampled classes code ds c) := by
  refine ⟨h.head, ?_, ?_⟩
  · rw [take_resampled hclasses, List.forall₂_map_right_iff, List.forall₂_same]
    intro cls _
    exact cls.holds_sample hc
  · rw [drop_resampled hclasses]
    exact h.rest

end classes

variable {p : Pattern} {classes : List CharClass} {ps : List Piece}

/-- Which national numbers a number pattern takes that starts with classes for the country code and
the area code. -/
theorem takes_classes_iff (hopen : RoutePattern.isOpen pattern = false) {limits : PatternLimits}
    (hp : Pattern.parse limits pattern = .ok p)
    (hclasses : classes.length = s.countryCode.toList.length + 3)
    (hpieces : p.pieces = classes.map (Piece.single · none) ++ ps) (ds : List Char) :
    s.Takes limits pattern ds ↔
      ds.length = Number.nationalLength ∧ (∀ c ∈ ds, Text.isDigit c = true) ∧
        FitsByParts classes ps s.countryCode.toList ds ∧
        p.atoms.length ≤ limits.room := by
  have hcovers : ds.length = Number.nationalLength →
      (Covers limits pattern (String.ofList (s.countryCode.toList ++ ds)) ↔
        FitsByParts classes ps s.countryCode.toList ds) := by
    intro hlength
    rw [RoutePattern.covers_iff hopen hp, String.toList_ofList, hpieces]
    exact cuttable_areaCode_iff hclasses hlength
  constructor
  · rintro ⟨hlength, hds, hcover, hroom⟩
    refine ⟨hlength, hds, (hcovers hlength).mp hcover, ?_⟩
    -- what can be cut among all pieces begins with what can be cut among the first of them
    by_contra hmany
    rw [RoutePattern.covers_iff hopen hp] at hcover
    exact hroom ((RoutePattern.overruns_iff hopen hp).mpr
      ⟨Nat.not_le.mp hmany, hcover.begins_take limits.room⟩)
  · rintro ⟨hlength, hds, hparts, hfew⟩
    refine ⟨hlength, hds, (hcovers hlength).mpr hparts, ?_⟩
    intro hover
    exact absurd ((RoutePattern.overruns_iff hopen hp).mp hover).1 (Nat.not_lt.mpr hfew)

/-- **When a number pattern is local to one area** that starts with classes for the country code and
the area code, and takes some national number. -/
theorem localToOneArea_classes_iff (hcode : s.countryCode.toList ≠ [])
    (hdigits : ∀ c ∈ s.countryCode.toList, Text.isDigit c = true)
    (hopen : RoutePattern.isOpen pattern = false)
    (hp : Pattern.parse settings.limits pattern = .ok p)
    (hclasses : classes.length = s.countryCode.toList.length + 3)
    (hstarts : classes.map (Piece.single · none) <+: p.pieces)
    (htakes : s.Takes settings.limits pattern ds) :
    s.LocalToOneArea settings pattern ↔
      CallClass.leadingDigits pattern < 4 ∨
        ∀ cls ∈ classes.drop s.countryCode.toList.length, ∃ c, cls = .literal c := by
  obtain ⟨ps, hpieces⟩ := hstarts
  have htakes_iff := takes_classes_iff hopen hp hclasses hpieces.symm
  constructor
  · intro hone
    by_contra hno
    push Not at hno
    obtain ⟨hlead, cls, hcls, hvaries⟩ := hno
    obtain ⟨hlength, hds, hparts, hfew⟩ := (htakes_iff ds).mp htakes
    obtain ⟨i, hi⟩ := List.mem_iff_getElem?.mp hcls
    have hsample : ∀ c, cls.sample c = c := by
      intro c
      cases cls with
      | literal l => exact absurd rfl (hvaries l)
      | restricted | anyDigit | nextDigit | nonZero | wildcard => rfl
    refine not_localToOneArea hcode hdigits hlead
      (resampled classes s.countryCode.toList ds) (fun c hc => ?_) i (fun c => ?_) hone
    · have hdigit : Text.isDigit c = true := by
        rcases hc with rfl | rfl <;> decide
      refine (htakes_iff _).mpr ⟨?_, ?_, hparts.resampled hclasses hc, hfew⟩
      · rw [resampled, List.length_append, List.length_map, List.length_drop, List.length_drop,
          hclasses, hlength, Number.nationalLength]
        omega
      · rw [resampled, List.forall_mem_append]
        constructor
        · exact isDigit_of_mem_samples hparts.area
            (fun u hu => hds u (List.mem_of_mem_take hu)) hdigit
        · intro d hd
          exact hds d (List.mem_of_mem_drop hd)
    · rw [take_resampled hclasses, List.getElem?_map, hi, Option.map_some, hsample]
  · intro h
    rw [localToOneArea_iff_takes hcode hdigits]
    refine h.imp_right fun hliteral ds ds' hds hds' _ _ => ?_
    obtain ⟨-, -, hparts, -⟩ := (htakes_iff ds).mp hds
    obtain ⟨-, -, hparts', -⟩ := (htakes_iff ds').mp hds'
    exact eq_of_literals hliteral hparts.area hparts'.area

/-! ### Together -/

/-- **Which patterns are local to one area.** For every switch with a country code of digits, and in
every session that keeps the limits of patterns: a national number is local exactly if the pattern
of its route has at least four leading digits and its area code is not toll-free. So a pattern is
local to one area exactly if it has less than four leading digits, or all national numbers that it
takes have one area code, toll-free ones apart. For a stem this means that it has less than four
digits, reaches to the end of the area code, or does not meet the country code; and for a number
pattern that starts with classes for the country code and the area code, and takes some national
number, that it has less than four leading digits or its area code is written in characters of its
own. -/
theorem localToOneArea_iff (hcode : s.countryCode.toList ≠ [])
    (hdigits : ∀ c ∈ s.countryCode.toList, Text.isDigit c = true) (settings : Settings) :
    (∀ number pattern ds, (Number.digits number).toList = s.countryCode.toList ++ ds →
        ds.length = Number.nationalLength →
        (s.classify number pattern = .localCall ↔
          4 ≤ CallClass.leadingDigits pattern ∧
            String.ofList (ds.take 3) ∉ Settings.tollFreeAreaCodes)) ∧
      (∀ pattern, s.LocalToOneArea settings pattern ↔
        CallClass.leadingDigits pattern < 4 ∨
          ∀ ds ds', s.Takes settings.limits pattern ds → s.Takes settings.limits pattern ds' →
            String.ofList (ds.take 3) ∉ Settings.tollFreeAreaCodes →
            String.ofList (ds'.take 3) ∉ Settings.tollFreeAreaCodes → ds.take 3 = ds'.take 3) ∧
      (∀ stem, stem ≠ [] → (∀ c ∈ stem, Text.isDigit c = true) →
        (s.LocalToOneArea settings (String.ofList (stem ++ ['*'])) ↔
          stem.length < 4 ∨ s.countryCode.toList.length + 3 ≤ stem.length ∨
            ¬ (stem <+: s.countryCode.toList ∨ s.countryCode.toList <+: stem))) ∧
      ∀ (pattern : String) (p : Pattern) (classes : List CharClass),
        RoutePattern.isOpen pattern = false →
        Pattern.parse settings.limits pattern = .ok p →
        classes.length = s.countryCode.toList.length + 3 →
        classes.map (Piece.single · none) <+: p.pieces →
        (∃ ds, s.Takes settings.limits pattern ds) →
        (s.LocalToOneArea settings pattern ↔
          CallClass.leadingDigits pattern < 4 ∨
            ∀ cls ∈ classes.drop s.countryCode.toList.length, ∃ c, cls = .literal c) := by
  refine ⟨fun number pattern ds => classify_national_eq_local_iff hcode,
    fun pattern => localToOneArea_iff_takes hcode hdigits,
    fun stem => localToOneArea_stem_iff hcode hdigits, ?_⟩
  rintro pattern p classes hopen hp hclasses hstarts ⟨ds, hds⟩
  exact localToOneArea_classes_iff hcode hdigits hopen hp hclasses hstarts hds

/-- A number pattern of few classes takes the national numbers that they accept digit by digit. -/
theorem takes_of_accepts (hopen : RoutePattern.isOpen pattern = false) {limits : PatternLimits}
    (hp : Pattern.parse limits pattern = .ok p)
    (hpieces : p.pieces = classes.map (Piece.single · none))
    (hfew : classes.length ≤ limits.room)
    (hlength : ds.length = Number.nationalLength) (hds : ds.all Text.isDigit = true)
    (haccepts : List.Forall₂ (fun cls c => cls.accepts c = true) classes
      (s.countryCode.toList ++ ds)) :
    s.Takes limits pattern ds := by
  refine ⟨hlength, List.all_eq_true.mp hds, ?_, ?_⟩
  · rw [RoutePattern.covers_iff hopen hp, String.toList_ofList, hpieces,
      Pattern.cuttable_singles_iff]
    exact haccepts.imp fun _ _ => CharClass.accepts_iff.mp
  · intro hover
    obtain ⟨hmany, -⟩ := (RoutePattern.overruns_iff hopen hp).mp hover
    rw [← Pattern.length_pieces, hpieces, List.length_map] at hmany
    omega

/-- A route that is pinned to the area code 202 is local to it. -/
theorem localToOneArea_iff_pinned :
    LocalToOneArea ⟨"1", true⟩ {} "1202XXXXXXX" ∧ LocalToOneArea ⟨"1", true⟩ {} "1202*" := by
  have hdigits : ∀ c ∈ ("1" : String).toList, Text.isDigit c = true :=
    List.all_eq_true.mp (by decide)
  have hstem : ∀ c ∈ "1202".toList, Text.isDigit c = true := List.all_eq_true.mp (by decide)
  obtain ⟨-, -, hstems, hpatterns⟩ :=
    localToOneArea_iff (s := ⟨"1", true⟩) (by decide) hdigits {}
  obtain ⟨p, hp, hpieces⟩ : ∃ p, Pattern.parse ({} : Settings).limits "1202XXXXXXX" = .ok p ∧
      p.pieces = ("1202XXXXXXX".toList.map CharClass.ofToken).map (Piece.single · none) :=
    ⟨_, rfl, rfl⟩
  have htakes : Takes ⟨"1", true⟩ ({} : Settings).limits "1202XXXXXXX" "2025551212".toList :=
    takes_of_accepts (by decide) hp hpieces (by decide) (by decide) (by decide) (by decide)
  constructor
  · refine (hpatterns _ p ("1202".toList.map CharClass.ofToken) (by decide) hp rfl ?_
      ⟨_, htakes⟩).mpr (Or.inr ?_)
    · rw [hpieces]
      exact ⟨("XXXXXXX".toList.map CharClass.ofToken).map (Piece.single · none), rfl⟩
    · simp [CharClass.ofToken]
  · exact (hstems "1202".toList (by decide) hstem).mpr (Or.inr (Or.inl (by decide)))

/-- A pattern with eight leading digits, counted beyond the letters that stand for its area code,
takes numbers of two areas and makes both of them local. -/
theorem not_localToOneArea_lettered :
    TakesLocally ⟨"1", true⟩ "1NXX5551212" "+12025551212" "2025551212".toList
        (Exchange.start {}) ∧
      TakesLocally ⟨"1", true⟩ "1NXX5551212" "+13015551212" "3015551212".toList
        (Exchange.start {}) ∧
      "2025551212".toList.take 3 ≠ "3015551212".toList.take 3 := by
  obtain ⟨p, hp, hpieces⟩ : ∃ p, Pattern.parse ({} : Settings).limits "1NXX5551212" = .ok p ∧
      p.pieces = ("1NXX5551212".toList.map CharClass.ofToken).map (Piece.single · none) :=
    ⟨_, rfl, rfl⟩
  refine ⟨?_, ?_, by decide⟩
  · apply (takesLocally_iff .refl (by decide)).mpr
    refine ⟨by decide +kernel, ?_, by decide +kernel⟩
    exact takes_of_accepts (by decide) hp hpieces (by decide) (by decide) (by decide) (by decide)
  · apply (takesLocally_iff .refl (by decide)).mpr
    refine ⟨by decide +kernel, ?_, by decide +kernel⟩
    exact takes_of_accepts (by decide) hp hpieces (by decide) (by decide) (by decide) (by decide)

end Switch

end CallRouting

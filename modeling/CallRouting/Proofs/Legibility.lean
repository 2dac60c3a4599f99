import CallRouting.Proofs.Answers
import CallRouting.Proofs.Utf8

/-!
# Which rules files are reported

When a dial plan cannot be loaded, that is to be a failure of the dial plan, which a command reports
in one line. It is, but for three kinds of files: the bytes are no text, a whole number has too many
digits, or arrays and objects lie too deep inside one another.

* **Contents** (`Legible`): a file that cannot be read, or the UTF-8 form of a text without such a
  number and such a depth.
* **The document** (`DialPlan.legible_iff`): reading it fails with a failure of the dial plan only,
  exactly if the content is legible.
* **Loading** (`DialPlan.load_cases`, `DialPlan.load_isReported_iff`): what comes after the document
  is read, the rules and their patterns, can fail with findings only.
* **Commands** (`CommandLine.fst_run_of_load_error`, `CommandLine.uncaught_of_load_ok`): a command
  that is given a rules file comes to what became of loading it.
* **Together** (`load_reported_iff_legible`).
-/

namespace CallRouting

open CommandLine (Command Format Outcome Surroundings)
open Exchange (decision decision_bind Neutral Session)

/-! ## Contents -/

/-- Whether a failure is one of the dial plan. -/
def LoadError.IsReported : LoadError → Prop
  | .unreadable .. | .notJson .. | .invalid _ => True
  | .pattern _ | .notText _ | .oversized _ | .tooDeep | .impossiblePath => False

namespace DialPlan

/-- Reads a text as a document, with line ends of any kind. -/
def readText (room : Nat) (text : String) : Except Json.ReadError Json :=
  Json.read room (String.ofList (Text.unifyLines text.toList))

/-- Whether what is at a path can be told to be a document or none: it cannot be read, or it is the
UTF-8 form of a text in which no whole number is too long and nothing lies too deep for the room
that there is. -/
inductive Legible (room : Nat) : Except FileFault (List UInt8) → Prop
  | unreadable (fault : FileFault) : Legible room (.error fault)
  | text {bytes : List UInt8} {text : String}
      (hbytes : bytes = text.toList.flatMap String.utf8EncodeChar)
      (hnumbers : ∀ digits, readText room text ≠ .error (.oversized digits))
      (hdepth : readText room text ≠ .error .tooDeep) : Legible room (.ok bytes)

/-! ## The document -/

/-- Bytes that are no text are no document. -/
theorem readDocument_of_error {bytes : List UInt8} {fault : Text.Utf8.Fault}
    (h : Text.Utf8.decode bytes = .error fault) (room : Nat) (path : String) :
    readDocument room path (.ok bytes) = .error (.notText fault) := by
  change (Text.Utf8.decode bytes).mapError LoadError.notText >>= _ = _
  rw [h]
  rfl

/-- What it means for a dial plan that a text is not accepted. -/
def failureOf (path : String) : Json.ReadError → LoadError
  | .malformed cause line column position => .notJson path cause line column position
  | .oversized digits => .oversized digits
  | .tooDeep => .tooDeep

/-- Only texts that are no JSON are failures of the dial plan. -/
theorem isReported_failureOf_iff {path : String} {e : Json.ReadError} :
    (failureOf path e).IsReported ↔ (∀ digits, e ≠ .oversized digits) ∧ e ≠ .tooDeep := by
  cases e <;> simp [failureOf, LoadError.IsReported]

/-- Bytes that are a text are the document that the text is read as. -/
theorem readDocument_of_text {bytes : List UInt8} {text : String}
    (h : Text.Utf8.decode bytes = .ok text) (room : Nat) (path : String) :
    readDocument room path (.ok bytes) = (readText room text).mapError (failureOf path) := by
  change (Text.Utf8.decode bytes).mapError LoadError.notText >>= _ = _
  rw [h]
  unfold readText
  simp only [Except.mapError, Exchange.ok_bind]
  rcases Json.read room (String.ofList (Text.unifyLines text.toList)) with ⟨_ | _ | _⟩ | _
  all_goals rfl

/-- **Reading a document fails with a failure of the dial plan only, exactly if the content is
legible.** -/
theorem legible_iff {content : Except FileFault (List UInt8)} {room : Nat} (path : String) :
    Legible room content ↔ ∀ e, readDocument room path content = .error e → e.IsReported := by
  cases content with
  | error fault =>
    refine iff_of_true (.unreadable fault) fun e h => ?_
    cases h
    trivial
  | ok bytes =>
    cases hdecode : Text.Utf8.decode bytes with
    | error fault =>
      refine iff_of_false (fun hlegible => ?_) fun h =>
        h _ (readDocument_of_error hdecode room path)
      cases hlegible with
      | text hbytes =>
        rw [Text.Utf8.decode_eq_ok_iff.mpr hbytes] at hdecode
        cases hdecode
    | ok text =>
      have hbytes := Text.Utf8.decode_eq_ok_iff.mp hdecode
      rw [readDocument_of_text hdecode]
      constructor
      · intro hlegible e h
        cases hlegible with
        | @text _ text' hbytes' hnumbers hdepth =>
          obtain rfl : text = text' :=
            Except.ok.inj (hdecode.symm.trans (Text.Utf8.decode_eq_ok_iff.mpr hbytes'))
          cases hread : readText room text with
          | error e' =>
            rw [hread] at h hnumbers hdepth
            cases h
            refine isReported_failureOf_iff.mpr ⟨fun digits h => ?_, fun h => ?_⟩
            · exact hnumbers digits (congrArg Except.error h)
            · exact hdepth (congrArg Except.error h)
          | ok document =>
            rw [hread] at h
            cases h
      · intro h
        refine .text hbytes (fun digits hread => ?_) fun hread => ?_
        · rw [hread] at h
          exact h _ rfl
        · rw [hread] at h
          exact h _ rfl

/-! ## Loading -/

variable {files : Files} {s : Switch} {path : String} {settings : Settings}

/-- **What comes of loading.** The document cannot be read, the rules are not in order, or there is
a dial plan. -/
theorem load_cases (settings : Settings) (files : Files) (s : Switch)
    (hpath : Path.isImpossible path = false) :
    (∃ e, readDocument settings.rooms.document (Path.plain path) (files (Path.plain path)) =
        .error e ∧
        decision settings (load files s path) = .error e) ∨
      (∃ document, readDocument settings.rooms.document (Path.plain path) (files (Path.plain path)) =
          .ok document) ∧
        ((∃ findings, decision settings (load files s path) = .error (.invalid findings)) ∨
          ∃ plan, decision settings (load files s path) = .ok plan) := by
  have hload : decision settings (load files s path) =
      readDocument settings.rooms.document (Path.plain path) (files (Path.plain path)) >>=
        fun document => (decision settings (ofDocument s document)).mapError .pattern >>= fun checked =>
          decision settings (settled (Path.plain path) checked) := by
    simp only [load_eq, hpath, decision_bind, Exchange.decision_settingsNow, Exchange.ok_bind,
      Exchange.decision_lift, Exchange.decision_adapt, Bool.false_eq_true, if_false]
  rw [hload]
  cases hdocument : readDocument settings.rooms.document (Path.plain path)
      (files (Path.plain path)) with
  | error e => exact Or.inl ⟨e, rfl, rfl⟩
  | ok document =>
    -- reading the rules is answered, for a pattern that is malformed is a finding
    obtain ⟨checked, hchecked, -⟩ := reads_ofDocument settings s document
    refine Or.inr ⟨⟨document, rfl⟩, ?_⟩
    rw [Exchange.ok_bind, hchecked]
    cases checked with
    | error findings => exact Or.inl ⟨findings, rfl⟩
    | ok plan => exact Or.inr ⟨plan, rfl⟩

/-- **Loading fails with a failure of the dial plan only, exactly if the content is legible.** -/
theorem load_isReported_iff (hpath : Path.isImpossible path = false) :
    (∀ e, decision settings (load files s path) = .error e → e.IsReported) ↔
      Legible settings.rooms.document (files (Path.plain path)) := by
  rw [legible_iff (Path.plain path)]
  rcases load_cases settings files s hpath with
    ⟨e, hdocument, hload⟩ | ⟨⟨document, hdocument⟩, ⟨findings, hload⟩ | ⟨plan, hload⟩⟩
  · rw [hdocument, hload]
    simp only [Except.error.injEq]
  · rw [hdocument, hload]
    refine iff_of_true (fun e h => ?_) fun e h => by cases h
    cases h
    trivial
  · rw [hdocument, hload]
    exact iff_of_true (fun e h => by cases h) fun e h => by cases h

end DialPlan

/-! ## Commands -/

namespace CommandLine

variable {s : Surroundings} {format : Format} {rules : String} {x : Exchange} {c : Command}

/-- A command whose rules file can be loaded does not fail on account of it. -/
theorem uncaught_of_load_ok (hc : c.rules? = some rules) {plan : DialPlan}
    (h : (DialPlan.load s.files (.setUp x.settings none none) rules x).1 = .ok plan)
    (e : LoadError) : (c.run s format x).1.uncaught ≠ some (.load e) := by
  cases c with
  | fit | transform => cases hc
  | route _ destination sender direction =>
    cases hc
    simp only [Command.run, runRoute, loadPlan, bind_assoc, Exchange.get_bind_apply,
      Exchange.run_bind_apply, h]
    rcases (plan.route destination sender direction _).1 with ⟨_ | _ | _ | _⟩ | _ | _
    all_goals
      intro hcaught
      cases hcaught
  | check =>
    cases hc
    simp only [Command.run, runCheck, loadPlan, bind_assoc, Exchange.get_bind_apply,
      Exchange.run_bind_apply, h]
    intro hcaught
    cases hcaught

end CommandLine

/-! ## Rules files -/

open DialPlan (Legible load_isReported_iff)

/-- A failure of the dial plan is reported with its code, in one line. -/
theorem loadFailure_of_isReported {e : LoadError} (h : e.IsReported) :
    CommandLine.loadFailure e = .failed 2 LoadError.code e.message := by
  cases e with
  | unreadable | notJson | invalid => rfl
  | pattern | notText | oversized | tooDeep | impossiblePath => cases h

/-- Any other failure ends the run. -/
theorem loadFailure_of_not_isReported {e : LoadError} (h : ¬ e.IsReported) :
    CommandLine.loadFailure e = .stopped (.load e) := by
  cases e with
  | unreadable | notJson | invalid => exact absurd trivial h
  | pattern | notText | oversized | tooDeep | impossiblePath => rfl

/-- **Loading a rules file fails as it should exactly if the file is legible.** At any moment of a
session in which the limits of patterns are not changed, and for a path that a file can have: a
dial plan is loaded or the failure is one of the dial plan, for whatever switch, exactly if nothing
can be read at the path, or it is the UTF-8 form of a text in which no whole number is too long and
nothing lies too deep for the room that the caller leaves. Of a legible file, a command that is
given it lets no failure through and reports one, if there is one, with exit code 2 and in one line.
A file that is not legible ends the run. -/
theorem load_reported_iff_legible {settings : Settings} {x : Exchange}
    (hx : Session Settings.limits (Exchange.start settings) x) (s : Surroundings) (format : Format)
    {rules : String} (hrules : Path.isImpossible rules = false) :
    (∀ switch : Switch,
      (∀ e, (DialPlan.load s.files switch rules x).1 = .error e → e.IsReported) ↔
        Legible x.settings.rooms.document (s.files (Path.plain rules))) ∧
    ∀ c : Command, c.rules? = some rules →
      (Legible x.settings.rooms.document (s.files (Path.plain rules)) →
        (∀ e, (c.run s format x).1.uncaught ≠ some (.load e)) ∧
        ∀ e, (DialPlan.load s.files (.setUp x.settings none none) rules x).1 = .error e →
          (c.run s format x).1 = .failed 2 LoadError.code e.message) ∧
      (¬ Legible x.settings.rooms.document (s.files (Path.plain rules)) →
        ∃ e, ¬ e.IsReported ∧ (c.run s format x).1 = .stopped (.load e)) := by
  have hfaithful : x.Faithful := hx.faithful (fun _ _ h => h) (Exchange.faithful_start settings)
  have hload : ∀ switch : Switch,
      (∀ e, (DialPlan.load s.files switch rules x).1 = .error e → e.IsReported) ↔
        Legible x.settings.rooms.document (s.files (Path.plain rules)) := by
    intro switch
    rw [Neutral.answer x hfaithful]
    exact load_isReported_iff hrules
  refine ⟨hload, fun c hc => ⟨fun hlegible => ?_, fun hillegible => ?_⟩⟩
  · have hreported := (hload (.setUp x.settings none none)).mpr hlegible
    have hfailed : ∀ e, (DialPlan.load s.files (.setUp x.settings none none) rules x).1 = .error e →
        (c.run s format x).1 = .failed 2 LoadError.code e.message := by
      intro e he
      rw [CommandLine.fst_run_of_load_error hc he, loadFailure_of_isReported (hreported e he)]
    refine ⟨fun e => ?_, hfailed⟩
    cases hanswer : (DialPlan.load s.files (.setUp x.settings none none) rules x).1 with
    | error e' =>
      rw [hfailed e' hanswer]
      intro hcaught
      cases hcaught
    | ok plan => exact CommandLine.uncaught_of_load_ok hc hanswer e
  · have hunreported := mt (hload (.setUp x.settings none none)).mp hillegible
    obtain ⟨e, hunreported⟩ := not_forall.mp hunreported
    obtain ⟨he, hnot⟩ := Classical.not_imp.mp hunreported
    refine ⟨e, hnot, ?_⟩
    rw [CommandLine.fst_run_of_load_error hc he, loadFailure_of_not_isReported hnot]

/-- There is no file. -/
theorem load_reported_iff_legible_missing :
    ((Command.check "rules.json").run ⟨fun _ => .error .missing, "", ""⟩ .json
        (Exchange.start {})).1.exitCode = 2 := by
  have hstart : Session Settings.limits (Exchange.start {}) (Exchange.start {}) := .refl
  have hrules : Path.isImpossible "rules.json" = false := by decide +kernel
  obtain ⟨-, hcommand⟩ := load_reported_iff_legible hstart ⟨fun _ => .error .missing, "", ""⟩ .json
    hrules
  obtain ⟨-, hfailed⟩ := (hcommand (.check "rules.json") rfl).1 (.unreadable .missing)
  have hmissing : (DialPlan.load (fun _ => .error .missing) (.setUp {} none none) "rules.json"
      (Exchange.start {})).1 = .error (.unreadable (Path.plain "rules.json") .missing) := rfl
  rw [hfailed _ hmissing]
  rfl

/-- A file of one byte that starts no character: the failure is none of the dial plan, and checking
the file ends with it. -/
theorem load_unreported :
    (DialPlan.load (fun _ => .ok [0xFF]) (.setUp {} none none) "rules.json"
        (Exchange.start {})).1 = .error (.notText ⟨0xFF, 0, 1, .badLead⟩) ∧
      (CommandLine.run ⟨fun _ => .ok [0xFF], "", ""⟩ (fun _ => none) ["check", "rules.json"]
        (Exchange.start {})).1.exitCode = 1 ∧
      (CommandLine.run ⟨fun _ => .ok [0xFF], "", ""⟩ (fun _ => none) ["check", "rules.json"]
        (Exchange.start {})).1.uncaught = some (.load (.notText ⟨0xFF, 0, 1, .badLead⟩)) := by
  decide +kernel

end CallRouting

import CallRouting.DialPlan.Load
import CallRouting.Proofs.JsonText
import CallRouting.Proofs.Loading
import CallRouting.Service.Basic

/-!
# Documents in files and in bodies

* **Bytes** (`Json.bytes`): a value without numbers that is written with the characters of ASCII
  reads back from its bytes, as the document of a rules file (`Json.readDocument_bytes`) and as the
  body of a request (`Json.readValue_bytes`).
* **Rules files** (`DialPlan.decision_load_eq_ok_iff`): loading a rules file is a question, and it
  succeeds exactly if the document of the file does; the routes are sound
  (`DialPlan.sound_of_load`).
* **The start** (`Service.decision_start`): the service starts with the dial plan of its rules file,
  or fails as loading that does.
-/

namespace CallRouting

/-! ## Characters of ASCII -/

namespace Text

/-- Without a CR, the line ends are what they are to be. -/
theorem unifyLines_eq_self {cs : List Char} (h : cs.all isPlain = true) : unifyLines cs = cs := by
  induction cs with
  | nil => rfl
  | cons c cs ih =>
    rw [List.all_cons, Bool.and_eq_true] at h
    have hc : c ≠ '\r' := by
      rintro rfl
      exact absurd h.1 (by decide)
    rw [unifyLines, if_neg hc, ih h.2]
    intro rest hr
    exact absurd hr hc

/-- The bytes of plain characters. -/
def asciiBytes (cs : List Char) : List UInt8 := cs.map fun c => UInt8.ofNat c.toNat

/-- A plain character is its byte. -/
theorem toNat_byte_of_isPlain {c : Char} (h : isPlain c = true) :
    (UInt8.ofNat c.toNat).toNat = c.toNat := by
  simp only [isPlain, Bool.and_eq_true, decide_eq_true_eq] at h
  rw [UInt8.toNat_ofNat']
  omega

/-- **Plain characters read back from their bytes.** -/
theorem Utf8.decode_asciiBytes {cs : List Char} (h : cs.all isPlain = true) :
    Utf8.decode (asciiBytes cs) = .ok (String.ofList cs) := by
  have hfrom : ∀ pos, Utf8.decodeFrom .between pos (asciiBytes cs) = .ok cs := by
    induction cs with
    | nil => exact fun _ => rfl
    | cons c cs ih =>
      intro pos
      rw [List.all_cons, Bool.and_eq_true] at h
      have hbyte := toNat_byte_of_isPlain h.1
      have hsmall : UInt8.ofNat c.toNat < 0x80 := by
        have := h.1
        simp only [isPlain, Bool.and_eq_true, decide_eq_true_eq] at this
        rw [UInt8.lt_iff_toNat_lt, hbyte]
        change c.toNat < 128
        omega
      rw [asciiBytes, List.map_cons, Utf8.decodeFrom, if_pos hsmall, hbyte, Char.ofNat_toNat]
      change (c :: ·) <$> Utf8.decodeFrom .between (pos + 1) (asciiBytes cs) = _
      rw [ih h.2]
      rfl
  rw [Utf8.decode, hfrom]
  rfl

end Text

namespace Json

open Text (isPlain)

/-- The bytes of a value that is written on one line with the characters of ASCII. -/
def bytes (v : Json) : List UInt8 := Text.asciiBytes (chars .ascii oneLine 0 v)

variable {room : Nat} {v : Json}

/-- **A document in a file reads back.** -/
theorem readDocument_bytes (h : isTextual room v = true) (path : String) :
    DialPlan.readDocument room path (.ok v.bytes) = .ok v := by
  have hplain : (chars .ascii oneLine 0 v).all isPlain = true := all_allows_chars .ascii 0 v _ h
  have hread := read_line h .ascii
  have hdecode : (Text.Utf8.decode v.bytes).mapError LoadError.notText = .ok (v.line .ascii) := by
    rw [bytes, Text.Utf8.decode_asciiBytes hplain]
    rfl
  have hunify : String.ofList (Text.unifyLines (v.line .ascii).toList) = v.line .ascii := by
    rw [line, String.toList_ofList, Text.unifyLines_eq_self hplain]
  change (Text.Utf8.decode v.bytes).mapError LoadError.notText >>= _ = _
  rw [hdecode, Exchange.ok_bind, hunify, hread]
  rfl

/-- Plain characters carry no mark and hold no zeros. -/
theorem decode?_asciiBytes {cs : List Char} (h : cs.all isPlain = true) :
    decode? (Text.asciiBytes cs) = some (String.ofList cs) := by
  have hne : ∀ c ∈ cs, ∀ b ∈ [(0 : UInt8), 0xFF, 0xFE, 0xEF], b ≠ UInt8.ofNat c.toNat := by
    rintro c hc b hb rfl
    have hplain := List.all_eq_true.mp h c hc
    have hbyte := Text.toNat_byte_of_isPlain hplain
    simp only [isPlain, Bool.and_eq_true, decide_eq_true_eq] at hplain
    simp only [List.mem_cons, List.not_mem_nil, or_false] at hb
    rcases hb with hb | hb | hb | hb <;> rw [hb] at hbyte <;>
      simp at hbyte <;> omega
  have hmark : Encoding.marked? (Text.asciiBytes cs) = none := by
    cases cs with
    | nil => rfl
    | cons c cs =>
      have hc := hne c List.mem_cons_self
      simp [Encoding.marked?, Encoding.marks, Text.asciiBytes, hc]
  have hzeros : Encoding.ofZeros (Text.asciiBytes cs) = .utf8 := by
    match cs, hne with
    | [], _ | [_], _ | [_, _, _], _ => rfl
    | [c, d], hne =>
      simp [Encoding.ofZeros, Text.asciiBytes, (hne c (by simp) 0 (by simp)).symm,
        (hne d (by simp) 0 (by simp)).symm]
    | c :: d :: e :: f :: cs, hne =>
      simp [Encoding.ofZeros, Text.asciiBytes, (hne c (by simp) 0 (by simp)).symm,
        (hne d (by simp) 0 (by simp)).symm]
  simp only [decode?, hmark, Option.getD_none, hzeros, Encoding.decode?,
    Text.Utf8.decode_asciiBytes h]
  rfl

/-- The bytes of a textual value are those of its line. -/
theorem decode?_bytes (h : isTextual room v = true) : decode? v.bytes = some (v.line .ascii) :=
  decode?_asciiBytes (all_allows_chars .ascii 0 v _ h)

/-- **A body reads back.** -/
theorem readValue_bytes (h : isTextual room v = true) : Ask.readValue room v.bytes = .ok v := by
  obtain ⟨c, cs, hchars, -, -, -⟩ := chars_head .ascii oneLine 0 h
  have hne : v.bytes.isEmpty = false := by
    rw [bytes, hchars]
    rfl
  rw [Ask.readValue, if_neg (by simp [hne]), decode?_bytes h]
  simp only [read_line h]

end Json

/-! ## Rules files -/

namespace DialPlan

open Exchange (decision decision_bind Neutral)

/-- What comes of a document that was read: a fault, or the dial plan and a record of it. -/
def settled (path : String) : Checked DialPlan → Work LoadError DialPlan
  | .error findings => throw (.invalid findings)
  | .ok plan => do
    Exchange.note (loaded path plan.routes.length)
    return plan

variable (settings : Settings) (files : Files) (s : Switch) (path : String)

instance (checked : Checked DialPlan) : Neutral (settled path checked) := by
  unfold settled
  cases checked <;> infer_instance

/-- Loading reads the document of the file and the rules of the document. -/
theorem load_eq :
    load files s path =
      if Path.isImpossible path then throw .impossiblePath
      else Exchange.settingsNow >>= fun settings =>
        liftM (readDocument settings.rooms.document (Path.plain path) (files (Path.plain path))) >>=
          fun document => ExceptT.adapt LoadError.pattern (ofDocument s document) >>=
            settled (Path.plain path) := by
  unfold load
  split_ifs
  · rfl
  · congr

instance : Neutral (load files s path) := by
  rw [load_eq]
  infer_instance

variable {settings files s path} {plan : DialPlan}

/-- **A dial plan that was loaded is the one of the document in a file that could be read.** -/
theorem decision_load_eq_ok_iff :
    decision settings (load files s path) = .ok plan ↔
      Path.isImpossible path = false ∧ ∃ bytes document,
        files (Path.plain path) = .ok bytes ∧
        readDocument settings.rooms.document (Path.plain path) (.ok bytes) = .ok document ∧
        decision settings (ofDocument s document) = .ok (.ok plan) := by
  have hsettled : ∀ checked, decision settings (settled (Path.plain path) checked) = .ok plan ↔
      checked = .ok plan := by
    intro checked
    cases checked with
    | error findings => exact iff_of_false nofun nofun
    | ok other => exact ⟨fun h => congrArg Except.ok (Except.ok.inj h), fun h => h ▸ rfl⟩
  have hunreadable : ∀ fault document,
      readDocument settings.rooms.document (Path.plain path) (.error fault) ≠ .ok document := nofun
  rw [load_eq, Exchange.decision_ite]
  cases himpossible : Path.isImpossible path with
  | true => exact iff_of_false nofun fun h => nomatch h.1
  | false =>
    simp only [Bool.false_eq_true, if_false, decision_bind, Exchange.decision_settingsNow,
      Exchange.ok_bind, Exchange.decision_lift, Exchange.decision_adapt,
      Exchange.bind_eq_ok_iff, Exchange.mapError_eq_ok_iff, hsettled,
      exists_eq_right, true_and]
    cases files (Path.plain path) with
    | error fault => simp [hunreadable]
    | ok bytes => simp

/-- A file that holds a textual document is loaded if the document is in order. -/
theorem decision_load_of_bytes {document : Json} (hpath : Path.isImpossible path = false)
    (hfile : files (Path.plain path) = .ok document.bytes)
    (htextual : Json.isTextual settings.rooms.document document = true)
    (hdocument : decision settings (ofDocument s document) = .ok (.ok plan)) :
    decision settings (load files s path) = .ok plan :=
  decision_load_eq_ok_iff.mpr
    ⟨hpath, _, document, hfile, Json.readDocument_bytes htextual _, hdocument⟩

/-- The routes of a dial plan that was loaded are sound. -/
theorem sound_of_load (h : decision settings (load files s path) = .ok plan) :
    plan.switch = s ∧
      ∀ r ∈ plan.routes, Route.Sound settings.limits settings.strictTemplates r := by
  obtain ⟨-, -, document, -, -, hdocument⟩ := decision_load_eq_ok_iff.mp h
  obtain ⟨c, hc, hgood⟩ := reads_ofDocument settings s document
  rw [hdocument] at hc
  exact hgood plan (Except.ok.inj hc).symm

end DialPlan

/-! ## The start of the service -/

namespace Service

open Exchange (decision decision_bind Neutral)

instance {ε : Type} (issues : List Settings.Issue) : Neutral
    (issues.forM fun issue => Exchange.note (warned s!"config issue: {issue.message}") :
      Work ε Unit) := by
  induction issues with
  | nil => exact inferInstanceAs (Neutral (pure ()))
  | cons issue rest ih => exact Neutral.bind inferInstance fun _ => ih

variable {settings : Settings} {files : Files}

/-- Telling the issues is answered. -/
theorem decision_warned {ε : Type} (issues : List Settings.Issue) : decision settings
    (issues.forM fun issue => Exchange.note (warned s!"config issue: {issue.message}") :
      Work ε Unit) = .ok () := by
  induction issues with
  | nil => rfl
  | cons issue rest ih =>
    change decision settings (Exchange.note (warned s!"config issue: {issue.message}") >>= fun _ =>
      rest.forM fun issue => Exchange.note (warned s!"config issue: {issue.message}")) = _
    rw [decision_bind, Exchange.decision_note, Exchange.ok_bind, ih]

instance (files : Files) : Neutral (start files) := by
  unfold start
  infer_instance

/-- **The service starts with what is loaded from its rules file**, if that can be read at all. -/
theorem decision_start {bytes : List UInt8} (hrules : settings.rulesFile ≠ "")
    (hpossible : Path.isImpossible settings.rulesFile = false)
    (hfile : files (Path.plain settings.rulesFile) = .ok bytes) :
    decision settings (start files) =
      (decision settings (DialPlan.load files (.setUp settings none none)
        settings.rulesFile)).mapError
        .load >>= fun plan => .ok ⟨some plan⟩ := by
  have hempty : settings.rulesFile.isEmpty = false := by simpa using hrules
  have hlook : files.look settings.rulesFile = .ok true := by
    rw [Files.look, hpossible, hfile]
    rfl
  have hissues : (settings.issues files).mapError StartError.rules =
      .ok (settings.issuesGiven true) := by
    rw [Settings.issues, hempty, hlook]
    rfl
  simp only [start, decision_bind, Exchange.decision_settingsNow, Exchange.ok_bind,
    Exchange.decision_lift, hissues, decision_warned, hempty, Exchange.decision_ite,
    Exchange.decision_adapt]
  rfl

end Service

end CallRouting

import CallRouting.CommandLine.Run
import CallRouting.Proofs.JsonText

/-!
# Lines that can be read back

The error stream and the log hold one JSON object on each line. Numbers and patterns get into them
as they were dialled and written, with whatever characters they hold.

* **Records** (`LogContext.IsTextual`, `LogRecord.isTextual_fields`): the fields of a record have
  different names, so the record is textual if the fields of its context are.
* **Lines** (`LogRecord.read_line`, `LogRecord.printable_of_mem_line`): the line of such a record
  reads back as its fields, and holds no control characters.
* **Contexts of texts** (`LogContext.ofTexts`, `LogContext.fields_ofTexts`): the fields that are
  there are written, in the order of all fields.
* **Failures** (`CommandLine.read_failureLine`): a reported failure reads back as well, from a line
  of printable ASCII.
* **Together** (`LogRecord.read_line_ofTexts`).
-/

namespace CallRouting

/-! ## Records -/

namespace LogContext

/-- Whether the fields of a context hold no numbers, and no more than `room` containers inside one
another. -/
def IsTextual (room : Nat) (c : LogContext) : Prop :=
  ∀ entry ∈ c.entries, Json.isTextual room entry.2 = true

/-- The names of the fields that are there are among the names of all fields, in their order. -/
theorem names_sublist (c : LogContext) :
    (c.fields.map (·.1)).Sublist ["request_id", "route", "remote_addr", "route_id", "pattern",
      "destination", "classification"] :=
  (List.filter_sublist (l := c.entries)).map Prod.fst

end LogContext

/-- Fields are textual if each of them is. -/
theorem Json.fieldsTextual_iff {room : Nat} {fields : List (String × Json)} :
    fieldsTextual room fields = true ↔ ∀ entry ∈ fields, isTextual room entry.2 = true := by
  induction fields with
  | nil => simp [fieldsTextual]
  | cons entry rest ih => simp [fieldsTextual, ih]

namespace LogRecord

variable {room : Nat} {r : LogRecord}

/-- The fields of a record have different names. -/
theorem nodup_names (r : LogRecord) (time : String) : ((r.fields time).map (·.1)).Nodup := by
  have hfailure : ((r.failure.map fun f => ("exc_info", Json.str (f.traced r.trace))).toList.map
      (·.1)).Sublist ["exc_info"] := by
    cases r.failure with
    | none => exact List.nil_sublist _
    | some f => exact List.Sublist.refl _
  have hall := ((List.Sublist.refl ["ts", "level", "logger", "msg"]).append
    r.context.names_sublist).append hfailure
  rw [fields, List.map_append, List.map_append]
  exact hall.nodup (by decide +kernel)

/-- **A record is textual if the fields of its context are.** -/
theorem isTextual_fields (h : r.context.IsTextual room) (time : String) :
    Json.isTextual (room + 1) (.obj (r.fields time)) = true := by
  rw [Json.isTextual, Bool.and_eq_true, decide_eq_true_eq]
  refine ⟨r.nodup_names time, Json.fieldsTextual_iff.mpr fun entry hentry => ?_⟩
  rw [fields, List.mem_append, List.mem_append] at hentry
  rcases hentry with (hhead | hcontext) | hfailure
  · simp only [List.mem_cons, List.not_mem_nil, or_false] at hhead
    rcases hhead with rfl | rfl | rfl | rfl <;> simp [Json.isTextual]
  · exact h entry (List.mem_of_mem_filter hcontext)
  · obtain ⟨f, -, rfl⟩ := Option.map_eq_some_iff.mp (Option.mem_toList.mp hfailure)
    simp [Json.isTextual]

/-! ## Lines -/

/-- **The line of a record reads back as its fields.** -/
theorem read_line (h : r.context.IsTextual room) (time : String) :
    Json.read (room + 1) (r.line time) = .ok (.obj (r.fields time)) :=
  Json.read_line (isTextual_fields h time) .unicode

/-- The line of a record holds no control characters. -/
theorem printable_of_mem_line (h : r.context.IsTextual room) (time : String) :
    ∀ c ∈ (r.line time).toList, 0x20 ≤ c.toNat := by
  intro c hc
  exact of_decide_eq_true (Json.allows_of_mem_line .unicode (isTextual_fields h time) c hc)

end LogRecord

/-! ## Contexts of texts -/

/-- The fields of a context, in the order that they are written in. -/
inductive ContextField where
  | requestId
  | route
  | remoteAddress
  | routeId
  | pattern
  | destination
  | classification
  deriving DecidableEq, Repr

namespace ContextField

/-- All fields in their order. -/
def all : List ContextField :=
  [requestId, route, remoteAddress, routeId, pattern, destination, classification]

/-- The name that a field is written with. -/
def name : ContextField → String
  | requestId => "request_id"
  | route => "route"
  | remoteAddress => "remote_addr"
  | routeId => "route_id"
  | pattern => "pattern"
  | destination => "destination"
  | classification => "classification"

end ContextField

namespace LogContext

variable {texts : ContextField → Option String}

/-- The context with these texts in its fields. -/
def ofTexts (texts : ContextField → Option String) : LogContext where
  requestId := .ofString? (texts .requestId)
  route := .ofString? (texts .route)
  remoteAddress := .ofString? (texts .remoteAddress)
  routeId := .ofString? (texts .routeId)
  pattern := .ofString? (texts .pattern)
  destination := .ofString? (texts .destination)
  classification := .ofString? (texts .classification)

/-- The context of texts has a text or null in each field. -/
theorem entries_ofTexts :
    (ofTexts texts).entries = ContextField.all.map fun f => (f.name, .ofString? (texts f)) := rfl

/-- Texts are textual. -/
theorem isTextual_ofTexts (texts : ContextField → Option String) (room : Nat) :
    (ofTexts texts).IsTextual room := by
  intro entry hentry
  rw [entries_ofTexts, List.mem_map] at hentry
  obtain ⟨f, -, rfl⟩ := hentry
  cases texts f <;> simp [Json.ofString?, Json.isTextual]

/-- **The fields that are there are written, in the order of all fields.** -/
theorem fields_ofTexts :
    (ofTexts texts).fields =
      ContextField.all.filterMap fun f => (texts f).map fun text => (f.name, .str text) := by
  rw [fields, entries_ofTexts]
  induction ContextField.all with
  | nil => rfl
  | cons f rest ih =>
    rw [List.map_cons, List.filter_cons, List.filterMap_cons, ih]
    cases texts f <;> rfl

end LogContext

/-! ## Failures -/

namespace CommandLine

/-- A reported failure is textual. -/
theorem isTextual_failureJson (code message : String) (room : Nat) :
    Json.isTextual (room + 2) (failureJson code message) = true := by
  simp [failureJson, Json.isTextual, Json.fieldsTextual]

/-- **A reported failure reads back.** -/
theorem read_failureLine (code message : String) (room : Nat) :
    Json.read (room + 2) (failureLine code message) = .ok (failureJson code message) :=
  Json.read_line (isTextual_failureJson code message room) .ascii

/-- A reported failure is written with the printable characters of ASCII. -/
theorem plain_of_mem_failureLine {code message : String} :
    ∀ c ∈ (failureLine code message).toList, 0x20 ≤ c.toNat ∧ c.toNat ≤ 0x7E := by
  intro c hc
  have hplain : Text.isPlain c = true :=
    Json.allows_of_mem_line .ascii (isTextual_failureJson code message 0) c hc
  simpa [Text.isPlain] using hplain

end CommandLine

/-! ## Together -/

/-- **Every line can be read back, whatever was dialled.** A record has any message, texts in any of
the fields of its context, and a failure with any text below any trace, or none. Its line holds no
characters below U+0020 and reads back as an object of time, level, logger and message, then the
fields that are there in the order of all fields, then the failure with its trace. The line of a
reported failure is of printable ASCII and reads back as its code and its message. -/
theorem LogRecord.read_line_ofTexts (level : LogLevel) (logger message time : String)
    (texts : ContextField → Option String) (failure : Option Failure) (trace : List String)
    (code sentence : String) (room : Nat) :
    (∀ c ∈ (LogRecord.line ⟨level, logger, message, .ofTexts texts, failure, trace⟩ time).toList,
        0x20 ≤ c.toNat) ∧
      Json.read (room + 1)
          (LogRecord.line ⟨level, logger, message, .ofTexts texts, failure, trace⟩ time) =
        .ok (.obj ([("ts", .str time), ("level", .str level.name), ("logger", .str logger),
            ("msg", .str message)] ++
          (ContextField.all.filterMap fun f => (texts f).map fun text => (f.name, .str text)) ++
          (failure.map fun f => ("exc_info", .str (f.traced trace))).toList)) ∧
      (∀ c ∈ (CommandLine.failureLine code sentence).toList, 0x20 ≤ c.toNat ∧ c.toNat ≤ 0x7E) ∧
      Json.read (room + 2) (CommandLine.failureLine code sentence) =
        .ok (.obj [("error", .obj [("code", .str code), ("message", .str sentence)])]) := by
  have htextual := LogContext.isTextual_ofTexts texts room
  refine ⟨printable_of_mem_line htextual time, ?_, CommandLine.plain_of_mem_failureLine,
    CommandLine.read_failureLine code sentence room⟩
  rw [read_line htextual, fields, LogContext.fields_ofTexts]

end CallRouting

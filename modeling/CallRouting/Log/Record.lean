import CallRouting.Json.Writer

/-!
# Log records

A log record says what happened, how grave it is and, in fields of their own, which route, pattern
and number it was about. It is written as one JSON object on a line: time, level, logger and
message, then the fields that are there in a fixed order, then a failure if the record has one.
-/

namespace CallRouting

/-! ## Levels -/

/-- How grave a record is: the greater, the graver. -/
abbrev LogLevel := Int

namespace LogLevel

def debug : LogLevel := 10
def info : LogLevel := 20
def warning : LogLevel := 30

/-- The levels that have a name. -/
def names : List (LogLevel × String) :=
  [(0, "NOTSET"), (10, "DEBUG"), (20, "INFO"), (30, "WARNING"), (40, "ERROR"), (50, "CRITICAL")]

/-- The name of a level, or its number. -/
def name (level : LogLevel) : String := (names.lookup level).getD s!"Level {level}"

end LogLevel

/-! ## Records -/

/-- What a record is about, in fields; null stands for a field that is not there. -/
structure LogContext where
  requestId : Json := .null
  route : Json := .null
  remoteAddress : Json := .null
  routeId : Json := .null
  pattern : Json := .null
  destination : Json := .null
  classification : Json := .null
  deriving Repr, Inhabited

namespace LogContext

/-- All fields with their names, in the order they are written in. -/
def entries (c : LogContext) : List (String × Json) :=
  [("request_id", c.requestId), ("route", c.route), ("remote_addr", c.remoteAddress),
   ("route_id", c.routeId), ("pattern", c.pattern), ("destination", c.destination),
   ("classification", c.classification)]

/-- The fields that are there. -/
def fields (c : LogContext) : List (String × Json) :=
  c.entries.filter fun entry => match entry.2 with
    | .null => false
    | _ => true

end LogContext

/-- A failure that a record tells of: its kind, and a message unless that is empty. -/
structure Failure where
  kind : String
  message : String
  deriving DecidableEq, Repr

/-- A failure as it is written, without a trace. -/
def Failure.text (f : Failure) : String :=
  if f.message.isEmpty then f.kind else s!"{f.kind}: {f.message}"

/-- A failure as it is written below the lines of its trace. -/
def Failure.traced (f : Failure) (trace : List String) : String :=
  "\n".intercalate (trace ++ [f.text])

/-- Without a trace there is the failure alone. -/
example : Failure.traced ⟨"ValueError", "no digits"⟩ [] = "ValueError: no digits" := by
  decide +kernel

/-- A log record. -/
structure LogRecord where
  level : LogLevel
  logger : String
  message : String
  context : LogContext := {}
  failure : Option Failure := none
  /-- The lines above the failure: the calls that it went through, and the failures that it came
  of. -/
  trace : List String := []
  deriving Repr, Inhabited

namespace LogRecord

/-- The fields of a record that was made at a time. -/
def fields (r : LogRecord) (time : String) : List (String × Json) :=
  [("ts", .str time), ("level", .str r.level.name), ("logger", .str r.logger),
   ("msg", .str r.message)] ++ r.context.fields ++
    (r.failure.map fun f => ("exc_info", Json.str (f.traced r.trace))).toList

/-- A record as a line of text. -/
def line (r : LogRecord) (time : String) : String := Json.line .unicode (.obj (r.fields time))

end LogRecord

end CallRouting

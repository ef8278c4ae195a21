import AccessTree.Json.Printer
import AccessTree.Log.Template
import AccessTree.Log.Timestamp

/-! # Log records

A `LogRecord` is what is known about one event. `LogRecord.line` writes it as one line of JSON: the
time, the level, the name of the logger and the message, then the id of the request and the failure
that caused the event if there are any, then the place in the program, and last the extra fields,
except those that are named like a standard attribute. -/

namespace AccessTree

/-- The failure that caused an event. -/
structure LoggedFailure where
  /-- The name of its class. -/
  kind : String
  message : String

/-- What the message of a failure looks like; a missing key is quoted. -/
def LoggedFailure.shown (f : LoggedFailure) : String :=
  if f.kind = Breakdown.key.name then Text.quoted f.message else f.message

/-- The failure as a JSON value. -/
def LoggedFailure.toJson (f : LoggedFailure) : Json :=
  .obj [("type", .str f.kind), ("message", .str f.shown)]

/-- **An event to be logged.** -/
structure LogRecord where
  /-- The name of the logger. -/
  logger : Json
  /-- The weight of the event. -/
  level : Literal
  /-- The template of the message. -/
  template : String
  arguments : List Json
  /-- Seconds since the start of 1970. -/
  created : Literal
  path : Json
  line : Json
  function : Json
  /-- The id of the request that is served, empty if there is none. -/
  requestId : String
  failure : Option LoggedFailure
  extra : Fields

/-- Why a record cannot be written. -/
inductive LogFault where
  | time (fault : Timestamp.Fault)
  | message (fault : TemplateFault)
  /-- An integer is too long to be written. -/
  | numeral (fault : NumeralFault)
  deriving DecidableEq

/-- The failure that a fault amounts to. -/
def LogFault.toFailure : LogFault → Failure
  | .time f => f.toFailure
  | .message f => f.toFailure
  | .numeral f => f.toFailure

namespace LogRecord

/-- The names of the weights. -/
def levelNames : List (Int × String) :=
  [(50, "CRITICAL"), (40, "ERROR"), (30, "WARNING"), (20, "INFO"), (10, "DEBUG"), (0, "NOTSET")]

/-- The name of a level. -/
def levelName (level : Literal) : Except NumeralFault String :=
  match levelNames.find? fun (n, _) => level.toJson.isNumber n with
  | some (_, name) => return name
  | none => return "Level " ++ (← level.writeShown)

/-- The attributes that every record has, which are no extra fields. -/
def standardAttributes : List String :=
  ["name", "msg", "args", "levelname", "levelno", "pathname", "filename", "module", "lineno",
    "funcName", "created", "msecs", "relativeCreated", "thread", "threadName", "processName",
    "process", "taskName", "getMessage", "exc_info", "exc_text", "stack_info"]

/-- A standard attribute, which an extra field of its name takes the place of. -/
def standard (r : LogRecord) (name : String) (value : Json) : Json :=
  (r.extra.lookup name).getD value

/-- The extra fields that are no standard attributes. -/
def extraFields (r : LogRecord) : Fields :=
  r.extra.filter fun f => !standardAttributes.contains f.1

/-- The record as a JSON value. -/
def toJson (r : LogRecord) : Except LogFault Json := do
  let level ← (levelName r.level).mapError .numeral
  let time ← (Timestamp.ofLiteral r.created >>= Timestamp.render).mapError .time
  let message ← (Template.fill r.template r.arguments).mapError .message
  let id := if r.requestId = "" then [] else [("request_id", Json.str r.requestId)]
  let failure := match r.failure with
    | none => []
    | some f => [("exception", f.toJson)]
  let extra := if r.extraFields.isEmpty then [] else [("extra", Json.obj r.extraFields)]
  return .obj ([("timestamp", .str time),
    ("level", r.standard "levelname" (.str level)),
    ("logger", r.standard "name" r.logger), ("message", .str message)] ++ id ++ failure ++
    [("file", r.standard "pathname" r.path), ("line", r.standard "lineno" r.line),
      ("function", r.standard "funcName" r.function)] ++ extra)

/-- **The line that is logged.** -/
def text (r : LogRecord) : Except LogFault String := do
  ((← r.toJson).write .oneLine).mapError .numeral

end LogRecord

end AccessTree

import Courier.Json.Reader
import Courier.Json.Record
import Courier.Json.Writer
import Courier.Time

/-!
# Log entries

The wire form has `timestamp` in seconds, `level`, `body`, and where they are there `trace_id` and
`attributes`.
-/

namespace Courier

inductive LogLevel
  | trace
  | debug
  | info
  | warning
  | error
  | fatal
  deriving DecidableEq, Repr, Inhabited

namespace LogLevel

def all : List LogLevel := [trace, debug, info, warning, error, fatal]

def name : LogLevel → String
  | trace => "trace"
  | debug => "debug"
  | info => "info"
  | warning => "warn"
  | error => "error"
  | fatal => "fatal"

def ofName? (s : String) : Option LogLevel := all.find? (·.name == s)

def rank : LogLevel → Nat
  | trace => 0
  | debug => 1
  | info => 2
  | warning => 3
  | error => 4
  | fatal => 5

def less (a b : LogLevel) : Bool := a.rank < b.rank

end LogLevel

structure LogEntry where
  timestamp : Timestamp
  level : LogLevel
  body : String
  traceId : Option String := none
  attributes : Object := []
  deriving Inhabited

namespace LogEntry

def withAttribute (e : LogEntry) (key : String) (value : Json) : LogEntry :=
  { e with attributes := e.attributes.set key value }

/-! ## Wire form -/

def contentType : String := "application/vnd.sentry.items.log+json"

def traceMember (e : LogEntry) : List (String × Json) :=
  match e.traceId with
  | some id => [("trace_id", .str id)]
  | none => []

def attributesMember (e : LogEntry) : List (String × Json) :=
  if e.attributes.isEmpty then [] else [("attributes", .obj e.attributes)]

/-- The members in the order in which an entry is written by itself. -/
def record (e : LogEntry) : Json :=
  .obj ([("timestamp", .ofFloat e.timestamp.seconds), ("level", .str e.level.name),
    ("body", .str e.body)] ++ e.traceMember ++ e.attributesMember)

def text (e : LogEntry) : String := e.record.text

/-- The entry as a value, its members in key order. -/
def toJson (e : LogEntry) : Json :=
  .obj (e.attributesMember ++ [("body", .str e.body), ("level", .str e.level.name),
    ("timestamp", .ofFloat e.timestamp.seconds)] ++ e.traceMember)

/-- The nearest millisecond to a time in seconds, and the epoch for what lies before it. -/
def instant (seconds : Float) : Timestamp :=
  ⟨((if seconds > 0 then seconds else 0) * 1000.0).round.toUInt64⟩

def ofDocument? (d : Document) : Option LogEntry := do
  let r ← Record.ofDocument? ["timestamp", "level", "body", "trace_id", "attributes"] d
  let seconds ← r.required "timestamp" Document.float?
  let level ← r.required "level" fun d => d.name?.bind LogLevel.ofName?
  let body ← r.required "body" Document.text?
  let traceId ← r.optional "trace_id" (Document.nullable? Document.text?) none
  let attributes ← r.optional "attributes" (Document.object? (Document.nestingLimit - 1)) []
  return ⟨instant seconds, level, body, traceId, attributes⟩

def ofText? (s : String) : Option LogEntry := (Document.ofString? s).bind ofDocument?

end LogEntry

end Courier

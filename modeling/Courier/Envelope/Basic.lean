import Courier.Envelope.Item
import Courier.Loss.Report

/-!
# Envelopes

A header and items in order, delivered as one.
-/

namespace Courier

structure Envelope where
  header : Object := []
  items : List Item := []
  deriving Inhabited

namespace Envelope

def withHeader (e : Envelope) (key : String) (value : Json) : Envelope :=
  { e with header := e.header.set key value }

def push (e : Envelope) (i : Item) : Envelope := { e with items := e.items ++ [i] }

def ofEvent (id : String) (event : Json) : Envelope :=
  ⟨[("event_id", .str id)], [.make .event (.json event)]⟩

/-- One item whose payload is a batch of `count` entries. -/
def ofBatch (kind : ItemKind) (contentType : Option String) (payload : Json) (count : UInt64) :
    Envelope :=
  let item := (Item.make kind (.json payload)).withCount count
  ⟨[], [match contentType with
    | some t => item.withHeader "content_type" (.str t)
    | none => item]⟩

def reportItem (r : LossReport) : Item := .make .clientReport (.json r.toJson)

def ofReport (r : LossReport) : Envelope := ⟨[], [reportItem r]⟩

def attach (e : Envelope) (r : LossReport) : Envelope := e.push (reportItem r)

def isEmpty (e : Envelope) : Bool := e.items.isEmpty

def eventId? (e : Envelope) : Option String := (e.header.get? "event_id").bind Json.string?

def telemetry (e : Envelope) : List Item := e.items.filter Item.isTelemetry

/-- How many entries of telemetry there are. -/
def telemetryCount (e : Envelope) (s : Sums) : Except Overflow UInt64 := s.total (e.telemetry.map Item.count)

/-- As `telemetryCount`, modulo `2^64`. -/
def telemetrySum (e : Envelope) : UInt64 := (e.telemetry.map Item.count).sum

/-- The categories of the telemetry, in their order and each once. -/
def categories (e : Envelope) : List Category :=
  Category.all.filter fun c => e.telemetry.any (·.category == c)

/-- What losing this envelope adds to the count of each loss. -/
def losses (e : Envelope) (reason : LossReason) : List (Loss × UInt64) :=
  e.telemetry.map fun i => (⟨reason, i.category⟩, i.count)

def same (a b : Envelope) : Bool :=
  Json.obj a.header == Json.obj b.header && a.items.length == b.items.length &&
    (a.items.zip b.items).all fun (i, j) => i.same j

end Envelope

end Courier

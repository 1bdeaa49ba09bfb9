import Courier.Json.Record
import Courier.Json.Reader
import Courier.Json.Writer
import Courier.Loss.Tally
import Courier.Loss.Basic
import Courier.Time

/-!
# Loss reports

What was lost up to a moment. A report is never without entries. Its wire form is
`timestamp` in seconds and `discarded_events`, a list of `reason`, `category` and `quantity`.
-/

namespace Courier

structure LossReport where
  timestamp : Timestamp
  losses : Tally Loss

namespace LossReport

/-- A report of what was counted; `none` if nothing was. -/
def ofLosses? (timestamp : Timestamp) (losses : Tally Loss) : Option LossReport :=
  if losses.counts.isEmpty then none else some ⟨timestamp, losses⟩

/-- Merges the entries of one kind modulo `2^64`. -/
def merged? (timestamp : Timestamp) (counts : List (Loss × UInt64)) : Option LossReport :=
  ofLosses? timestamp (counts.foldl (fun (t : Tally Loss) c => t.add c.1 c.2) .empty)

/-- Merges the entries of one kind; `none` if nothing stays. -/
def ofCounts? (s : Sums) (timestamp : Timestamp) (counts : List (Loss × UInt64)) :
    Except Overflow (Option LossReport) := do
  -- zeros are left out before they are added up, so a sum that wraps to zero stays
  let losses ← counts.foldlM (fun (t : Tally Loss) c => t.merge s c.1 c.2) .empty
  return ofLosses? timestamp losses

def entries (r : LossReport) : List (Loss × UInt64) :=
  Loss.all.filterMap fun l => (r.losses.counts.lookup l).map fun n => (l, n)

def quantity (r : LossReport) (l : Loss) : UInt64 := r.losses.get l

def total (r : LossReport) (s : Sums) : Except Overflow UInt64 := r.losses.total s

/-! ## Wire form -/

/-- The members in the order in which a report is written by itself. -/
def record (r : LossReport) : Json :=
  .obj [
    ("timestamp", .ofFloat r.timestamp.seconds),
    ("discarded_events", .arr (r.entries.map fun (l, n) => .obj [
      ("reason", .str l.reason.name),
      ("category", .str l.category.name),
      ("quantity", .ofNat n)]))]

def text (r : LossReport) : String := r.record.text

/-- The report as a value, its members in key order. -/
def toJson (r : LossReport) : Json :=
  .obj [
    ("discarded_events", .arr (r.entries.map fun (l, n) => .obj [
      ("category", .str l.category.name),
      ("quantity", .ofNat n),
      ("reason", .str l.reason.name)])),
    ("timestamp", .ofFloat r.timestamp.seconds)]

/-- Milliseconds of a time in seconds, cut off; the epoch for what lies before it. -/
def instant (seconds : Float) : Timestamp :=
  if seconds.isFinite && seconds > 0 then ⟨(seconds * 1000.0).toUInt64⟩ else .zero

def entryOfDocument? (d : Document) : Option (Loss × UInt64) := do
  let r ← Record.ofDocument? ["reason", "category", "quantity"] d
  let reason ← r.required "reason" fun d => d.name?.bind LossReason.ofName?
  let category ← r.required "category" fun d => d.name?.bind Category.ofName?
  let quantity ← r.required "quantity" Document.natural?
  return (⟨reason, category⟩, quantity)

/-- The time that a written report tells, and its entries as they stand there. -/
def listed? (d : Document) : Option (Timestamp × List (Loss × UInt64)) := do
  let r ← Record.ofDocument? ["timestamp", "discarded_events"] d
  let seconds ← r.required "timestamp" Document.float?
  let counts ← r.optional "discarded_events" (Document.items? entryOfDocument?) []
  return (instant seconds, counts)

def ofDocument? (s : Sums) (d : Document) : Except Overflow (Option LossReport) :=
  match listed? d with
  | some (timestamp, counts) => ofCounts? s timestamp counts
  | none => .ok none

def ofText? (s : Sums) (text : String) : Except Overflow (Option LossReport) :=
  match Document.ofString? text with
  | some d => ofDocument? s d
  | none => .ok none

end LossReport

end Courier

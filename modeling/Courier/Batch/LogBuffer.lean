import Courier.Batch.Log
import Courier.Batch.Gate
import Courier.Batch.Slots

/-!
# Log buffers

A slot buffer that takes nothing while it is being flushed or after it was disposed of, and tells its owner
which place an entry took.
-/

namespace Courier

inductive AddStatus
  | addedFirst
  | added
  | addedLast
  | overCapacity
  | flushing
  | disposed
  deriving DecidableEq, Repr, Inhabited

def AddStatus.isAdded : AddStatus → Bool
  | addedFirst | added | addedLast => true
  | _ => false

structure LogBuffer where
  slots : SlotBuffer LogEntry
  /-- How long an entry waits at most. -/
  timeout : Duration
  gate : FlushGate := {}
  disposed : Bool := false

namespace LogBuffer

/-- A timeout of zero is found out before the capacity. -/
def make (capacity : UInt64) (timeout : Duration) : Except SettingsError LogBuffer :=
  if timeout = .zero then .error (.flushInterval timeout)
  else (SlotBuffer.make capacity).map fun slots => { slots, timeout }

def count (b : LogBuffer) : Nat := b.slots.count

def isEmpty (b : LogBuffer) : Bool := b.slots.isEmpty

def isFull (b : LogBuffer) : Bool := b.slots.isFull

def statusOf (capacity : Nat) (r : Added LogEntry) : AddStatus :=
  if r.rejected.isSome then .overCapacity
  else if r.slot = 1 then .addedFirst
  else if r.slot = capacity then .addedLast
  else .added

def add (b : LogBuffer) (e : LogEntry) : AddStatus × Option LogEntry × LogBuffer :=
  if b.disposed then (.disposed, some e, b)
  else if b.gate.held then (.flushing, some e, b)
  else
    let (r, slots) := b.slots.add e
    (statusOf b.slots.capacity r, r.rejected, { b with slots := slots })

def tryFlush (b : LogBuffer) : Option LogBuffer :=
  b.gate.enter?.map fun gate => { b with gate := gate }

def drain (b : LogBuffer) : List LogEntry × LogBuffer :=
  let (entries, slots) := b.slots.drain
  (entries, { b with slots := slots })

def release (b : LogBuffer) : LogBuffer := { b with gate := b.gate.leave }

def dispose (b : LogBuffer) : LogBuffer := { b with disposed := true }

def text (b : LogBuffer) : String :=
  "LogBatchBuffer \x7b capacity: " ++ toString b.slots.capacity ++ ", count: " ++
    toString b.count ++ ", flushing: " ++ toString b.gate.held ++ " \x7d"

end LogBuffer

end Courier

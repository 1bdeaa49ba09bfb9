import Courier.Batch.Alarm
import Courier.Batch.Gate
import Courier.Batch.Slots
import Courier.Batch.Turn
import Courier.Settings.Basic

/-!
# Batchers

Items gather in a buffer and go out as one envelope when the buffer is full or when the flush interval is
over since its first item. The first slot arms the alarm, the last one disarms it and flushes; an item
beyond the last slot is lost to back pressure.
-/

namespace Courier

structure Batcher (α : Type) where
  /-- There is none when every item is a batch of its own. -/
  buffer : Option (SlotBuffer α)
  interval : Duration
  kind : ItemKind
  contentType : Option String
  gate : FlushGate := {}
  alarm : Alarm Unit := {}
  disposed : Bool := false

namespace Batcher

variable {α : Type} [BatchItem α]

def make (settings : BatchSettings) (kind : ItemKind) (contentType : Option String) :
    Except SettingsError (Batcher α) :=
  match settings.validate with
  | .error e => .error e
  | .ok _ =>
    let interval := settings.flushInterval
    if settings.maxSize = 1 then .ok { buffer := none, interval, kind, contentType }
    else (SlotBuffer.make settings.maxSize).map fun b =>
      { buffer := some b, interval, kind, contentType }

/-! ## What is left to do after an emission -/

/-- What a flush was made for. -/
inductive Purpose
  | byHand
  | lastSlot
  | timeout
  deriving DecidableEq, Repr, Inhabited

inductive Rest
  /-- An item went out by itself. -/
  | accept
  /-- A loss was counted. -/
  | refuse
  /-- A batch went out; the gate is held. -/
  | flush (purpose : Purpose) (soFar : Nat)
  /-- The last batch went out; the gate is held. -/
  | close
  deriving DecidableEq, Repr, Inhabited

abbrev Step (α : Type) := Turn (Batcher α) Rest

/-! ## Flushing -/

def isEmpty (b : Batcher α) : Bool := b.buffer.all SlotBuffer.isEmpty

def isFull (b : Batcher α) : Bool := b.buffer.any SlotBuffer.isFull

def arm (b : Batcher α) : Batcher α := { b with alarm := b.alarm.arm b.interval () }

def disarm (b : Batcher α) : Batcher α := { b with alarm := b.alarm.disarm }

def emission (b : Batcher α) (items : List α) : Emission :=
  .ofItems b.kind b.contentType items

/-- What follows a flush: after the last slot, an alarm for what came in meanwhile. -/
def finish (b : Batcher α) (soFar : Nat) : Purpose → Step α
  | .byHand => .reply b (.count soFar)
  | .lastSlot => .reply (if b.isEmpty then b else b.arm) (.taken true)
  | .timeout => .reply b .done

/-- Takes the contents out and holds the gate while they go out, if the gate is free. -/
def flushFrom (b : Batcher α) (purpose : Purpose) (soFar : Nat) : Step α :=
  match b.buffer, b.gate.enter? with
  | some slots, some gate =>
    let (items, slots) := slots.drain
    let b := { b with buffer := some slots }
    if items.isEmpty then b.finish soFar purpose
    else .emit (b.emission items) { b with gate := gate } (.flush purpose (soFar + items.length))
  | _, _ => b.finish soFar purpose

/-- Goes on after an emission. A buffer that was filled meanwhile is flushed again. -/
def resume (b : Batcher α) : Rest → Step α
  | .accept => .reply b (.taken true)
  | .refuse => .reply b (.taken false)
  | .flush purpose soFar =>
    let b := { b with gate := b.gate.leave }
    if b.isFull then b.flushFrom purpose soFar else b.finish soFar purpose
  | .close => .reply { b with gate := b.gate.leave } .done

/-! ## Operations -/

def enqueue (b : Batcher α) (x : α) : Step α :=
  if b.disposed then .reply b .disposed
  else
    match b.buffer with
    | none => .emit (b.emission [x]) b .accept
    | some slots =>
      let (r, slots) := slots.add x
      let b := { b with buffer := some slots }
      let b := if r.slot = 1 then b.arm else b
      if r.slot = slots.capacity then b.disarm.flushFrom .lastSlot 0
      -- all cells are filled, so a flush by somebody else is in progress
      else if r.rejected.isSome then .emit (.loss ⟨.backpressure, b.kind.category⟩ 1) b .refuse
      else .reply b (.taken true)

def flush (b : Batcher α) : Step α := b.flushFrom .byHand 0

def pending (b : Batcher α) : Nat := (b.buffer.map SlotBuffer.count).getD 0

def timeout (b : Batcher α) : Step α := b.flushFrom .timeout 0

/-- Takes nothing more, and sends what is there unless a flush is in progress. -/
def dispose (b : Batcher α) : Step α :=
  if b.disposed then .reply b .done
  else
    let b := { b.disarm with disposed := true }
    match b.buffer, b.gate.enter? with
    | some slots, some gate =>
      let (items, slots) := slots.drain
      let b := { b with buffer := some slots }
      if items.isEmpty then .reply b .done
      else .emit (b.emission items) { b with gate := gate } .close
    | _, _ => .reply b .done

end Batcher

end Courier

import Courier.Batch.Alarm
import Courier.Batch.LogBuffer
import Courier.Batch.Turn
import Courier.Settings.Basic

/-!
# Log batchers

Two buffers take turns, so that entries come in while a batch goes out. An entry that the active buffer does
not take is offered to the other one before it is lost to back pressure.
-/

namespace Courier

/-- The two buffers and what goes with each. -/
inductive Side
  | left
  | right
  deriving DecidableEq, Repr, Inhabited

def Side.other : Side → Side
  | left => right
  | right => left

def Side.index : Side → Nat
  | left => 0
  | right => 1

structure LogBatcher where
  left : LogBuffer
  right : LogBuffer
  leftAlarm : Alarm Unit := {}
  rightAlarm : Alarm Unit := {}
  active : Side := .left
  disposed : Bool := false

namespace LogBatcher

def make (settings : BatchSettings) : Except SettingsError LogBatcher :=
  match settings.validate with
  | .error e => .error e
  | .ok _ =>
    (LogBuffer.make settings.maxSize settings.flushInterval).map fun b => { left := b, right := b }

/-! ## The two sides -/

def buffer (b : LogBatcher) : Side → LogBuffer
  | .left => b.left
  | .right => b.right

def setBuffer (b : LogBatcher) (side : Side) (buffer : LogBuffer) : LogBatcher :=
  match side with
  | .left => { b with left := buffer }
  | .right => { b with right := buffer }

def alarm (b : LogBatcher) : Side → Alarm Unit
  | .left => b.leftAlarm
  | .right => b.rightAlarm

def setAlarm (b : LogBatcher) (side : Side) (alarm : Alarm Unit) : LogBatcher :=
  match side with
  | .left => { b with leftAlarm := alarm }
  | .right => { b with rightAlarm := alarm }

def arm (b : LogBatcher) (side : Side) : LogBatcher :=
  b.setAlarm side ((b.alarm side).arm (b.buffer side).timeout ())

def disarm (b : LogBatcher) (side : Side) : LogBatcher := b.setAlarm side (b.alarm side).disarm

def turnFrom (b : LogBatcher) (side : Side) : LogBatcher :=
  if b.active = side then { b with active := side.other } else b

/-! ## What is left to do after an emission -/

/-- What a side was captured for. -/
inductive Purpose
  /-- A flush by hand, which goes on with the other side. -/
  | firstSide
  | secondSide (before : Nat)
  | lastSlot
  | timeout
  deriving DecidableEq, Repr, Inhabited

inductive Rest
  /-- A loss was counted. -/
  | refuse
  /-- The contents of a side went out; its gate is held. -/
  | capture (side : Side) (purpose : Purpose) (soFar : Nat)
  /-- The last contents of a side went out; its gate is held. -/
  | close (side : Side)
  deriving DecidableEq, Repr, Inhabited

abbrev Step := Turn LogBatcher Rest

/-! ## Capturing a side -/

def emission (entries : List LogEntry) : Emission :=
  .ofItems .log (some LogEntry.contentType) entries

/-- Takes the contents of a side out and holds its gate while they go out; otherwise `stopped` follows. -/
def captureOr (b : LogBatcher) (side : Side) (purpose : Purpose) (soFar : Nat)
    (stopped : LogBatcher → Step) : Step :=
  match (b.buffer side).tryFlush with
  | none => stopped b
  | some held =>
    let (entries, drained) := held.drain
    if entries.isEmpty then stopped (b.setBuffer side drained.release)
    else
      .emit (emission entries) (b.setBuffer side drained)
        (.capture side purpose (soFar + entries.length))

/-- What follows the capture of the last side of an operation. -/
def finish (b : LogBatcher) (side : Side) (purpose : Purpose) (soFar : Nat) : Step :=
  match purpose with
  | .firstSide =>
    b.captureOr side.other (.secondSide soFar) 0 fun b => .reply b (.count soFar)
  | .secondSide before => .reply b (.count (before + soFar))
  | .lastSlot => .reply (if (b.buffer side).isEmpty then b else b.arm side) (.taken true)
  | .timeout => .reply b .done

def captureFrom (b : LogBatcher) (side : Side) (purpose : Purpose) (soFar : Nat) : Step :=
  b.captureOr side purpose soFar fun b => b.finish side purpose soFar

/-- Takes out what waits on a side as the batcher is disposed of, then does the same with the other. -/
def closeOr (b : LogBatcher) (side : Side) (closed : LogBatcher → Step) : Step :=
  let b := b.disarm side
  let b := b.setBuffer side (b.buffer side).dispose
  match (b.buffer side).tryFlush with
  | none => closed b
  | some held =>
    let (entries, drained) := held.drain
    if entries.isEmpty then closed (b.setBuffer side drained.release)
    else .emit (emission entries) (b.setBuffer side drained) (.close side)

def closeRight (b : LogBatcher) : Step := b.closeOr .right fun b => .reply b .done

/-- Goes on after an emission. A side that was filled meanwhile is captured again. -/
def resume (b : LogBatcher) : Rest → Step
  | .refuse => .reply b (.taken false)
  | .capture side purpose soFar =>
    let b := b.setBuffer side (b.buffer side).release
    if (b.buffer side).isFull then b.captureFrom side purpose soFar
    else b.finish side purpose soFar
  | .close side =>
    let b := b.setBuffer side (b.buffer side).release
    match side with
    | .left => b.closeRight
    | .right => .reply b .done

/-! ## Operations -/

def added (b : LogBatcher) (side : Side) : AddStatus → Step
  | .addedFirst => .reply (b.arm side) (.taken true)
  | .addedLast => ((b.disarm side).turnFrom side).captureFrom side .lastSlot 0
  | _ => .reply b (.taken true)

def enqueue (b : LogBatcher) (e : LogEntry) : Step :=
  if b.disposed then .reply b .disposed
  else
    let side := b.active
    let (status, rejected, buffer) := (b.buffer side).add e
    let b := b.setBuffer side buffer
    match rejected with
    | none => b.added side status
    | some e =>
      -- the active side is full or goes out just now: the other one is tried once
      let side := side.other
      let (status, rejected, buffer) := (b.buffer side).add e
      let b := b.setBuffer side buffer
      match rejected with
      | none => b.added side status
      | some _ => .emit (.loss ⟨.backpressure, .logItem⟩ 1) b .refuse

/-- Captures both sides. -/
def flush (b : LogBatcher) : Step := b.captureFrom .left .firstSide 0

def pending (b : LogBatcher) : Nat := b.left.count + b.right.count

def timeout (b : LogBatcher) (side : Side) : Step :=
  if (b.buffer side).isEmpty then .reply b .done
  -- what comes in while the side goes out is stored on the other one
  else (b.turnFrom side).captureFrom side .timeout 0

/-- Takes nothing more, and sends what is there on each side that is not being flushed. -/
def dispose (b : LogBatcher) : Step :=
  if b.disposed then .reply b .done
  else ({ b with disposed := true } : LogBatcher).closeOr .left closeRight

end LogBatcher

end Courier

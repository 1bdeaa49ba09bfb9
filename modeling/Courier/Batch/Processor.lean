import Courier.Batch.Batcher
import Courier.Batch.LogBatcher

/-!
# Processors

A batcher of either kind, driven by commands.
-/

namespace Courier

inductive Processor
  | items (b : Batcher (Option Json))
  | logs (b : LogBatcher)

inductive BatchCommand
  /-- An item that is written already, or that cannot be. -/
  | add (item : Option Json)
  | log (e : LogEntry)
  | flush
  | dispose
  | pending
  deriving Inhabited

namespace Processor

inductive Rest
  | items (r : Batcher.Rest)
  | logs (r : LogBatcher.Rest)
  deriving DecidableEq, Repr, Inhabited

abbrev Step := Turn Processor Rest

def ofItems : Batcher.Step (Option Json) → Step
  | .reply b r => .reply (items b) r
  | .emit what b next => .emit what (items b) (.items next)

def ofLogs : LogBatcher.Step → Step
  | .reply b r => .reply (logs b) r
  | .emit what b next => .emit what (logs b) (.logs next)

def pending : Processor → Nat
  | items b => b.pending
  | logs b => b.pending

/-- Begins a command. An entry of a log is an item too, but not the other way round. -/
def start : Processor → BatchCommand → Step
  | items b, .add x => ofItems (b.enqueue x)
  | items b, .log e => ofItems (b.enqueue (some e.toJson))
  | logs b, .add _ => .reply (logs b) (.taken false)
  | logs b, .log e => ofLogs (b.enqueue e)
  | items b, .flush => ofItems b.flush
  | logs b, .flush => ofLogs b.flush
  | items b, .dispose => ofItems b.dispose
  | logs b, .dispose => ofLogs b.dispose
  | p, .pending => .reply p (.count p.pending)

def resume : Processor → Rest → Step
  | items b, .items r => ofItems (b.resume r)
  | logs b, .logs r => ofLogs (b.resume r)
  | p, _ => .reply p .done

/-! ## Alarms -/

def alarms : Processor → List (Alarm Unit)
  | items b => [b.alarm]
  | logs b => [b.leftAlarm, b.rightAlarm]

def disarm : Processor → Nat → Processor
  | items b, 0 => items b.disarm
  | logs b, 0 => logs (b.disarm .left)
  | logs b, 1 => logs (b.disarm .right)
  | p, _ => p

def timeout : Processor → Nat → Step
  | items b, 0 => ofItems b.timeout
  | logs b, 0 => ofLogs (b.timeout .left)
  | logs b, 1 => ofLogs (b.timeout .right)
  | p, _ => .reply p .done

def active? : Processor → Option Nat
  | items _ => none
  | logs b => some b.active.index

/-- As many turns as a command takes at most when nobody comes in between. -/
def turns : Nat := 4

def run (p : Processor) (c : BatchCommand) : List Emission × Processor × BatchReply :=
  (p.start c).settle resume turns

def runTimeout (p : Processor) (i : Nat) : List Emission × Processor × BatchReply :=
  (p.timeout i).settle resume turns

end Processor

end Courier

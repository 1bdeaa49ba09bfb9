import Courier.Envelope.Basic

/-!
# The ledger of losses

Losses are counted until a report takes them out. A report that was not delivered puts its counts back.
A ledger that is switched off counts nothing.
-/

namespace Courier

structure Ledger where
  enabled : Bool := true
  /-- How what is pending is added up. -/
  sums : Sums := .checked
  counts : Tally Loss := .empty

namespace Ledger

def record (l : Ledger) (loss : Loss) (n : UInt64) : Ledger :=
  if l.enabled then { l with counts := l.counts.add loss n } else l

def recordAll (l : Ledger) (losses : List (Loss × UInt64)) : Ledger :=
  losses.foldl (fun l c => l.record c.1 c.2) l

/-- Counts every item of telemetry in a lost envelope; its reports are put back by who attached them. -/
def recordEnvelope (l : Ledger) (reason : LossReason) (e : Envelope) : Ledger :=
  l.recordAll (e.losses reason)

/-- Takes all counts out into a report, if there are any. -/
def report (l : Ledger) (now : Timestamp) : Option LossReport × Ledger :=
  if l.enabled then
    let (counts, rest) := l.counts.takeAll
    -- no loss has two counts, so nothing is added up
    (LossReport.merged? now counts, { l with counts := rest })
  else (none, l)

def restore (l : Ledger) (r : LossReport) : Ledger := l.recordAll r.entries

def pending (l : Ledger) (loss : Loss) : UInt64 := l.counts.get loss

def pendingTotal (l : Ledger) : Except Overflow UInt64 := l.counts.total l.sums

/-- All that is pending, modulo `2^64`. -/
def pendingSum (l : Ledger) : UInt64 := l.counts.sum

def pendingList (l : Ledger) : List (Loss × UInt64) :=
  (Loss.all.map fun loss => (loss, l.pending loss)).filter (·.2 != 0)

def text (l : Ledger) : Except Overflow String :=
  l.pendingTotal.map fun n =>
    "ClientReportRecorder \x7b enabled: " ++ toString l.enabled ++ ", pending: " ++ toString n ++ " \x7d"

end Ledger

end Courier

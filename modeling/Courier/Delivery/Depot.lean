import Courier.Delivery.Transport
import Courier.Loss.Ledger
import Courier.Pressure
import Courier.Storage.Memory

/-!
# What workers share

The ledger of losses, the clock, the pressure monitor if there is one, and the files. A report of losses
rides along with an envelope, and goes back into the ledger if the envelope does not arrive.
-/

namespace Courier

structure Depot where
  ledger : Ledger := {}
  clock : Clock := ⟨.zero⟩
  monitor : Option PressureMonitor := none
  storage : Storage := {}

/-- What is handed to the transport, and the report that was put into it. -/
structure Outbound where
  envelope : Envelope
  report : Option LossReport
  deriving Inhabited

namespace Depot

/-- Takes the losses so far out into a report that rides along, if losses are reported. -/
def load (d : Depot) (reportLosses : Bool) (e : Envelope) : Outbound × Depot :=
  if reportLosses then
    let (report, ledger) := d.ledger.report d.clock.now
    let d := { d with ledger := ledger }
    match report with
    | some r => (⟨e.attach r, some r⟩, d)
    | none => (⟨e, none⟩, d)
  else (⟨e, none⟩, d)

/-- Puts the losses back that rode along. -/
def unload (d : Depot) (o : Outbound) : Depot :=
  match o.report with
  | some r => { d with ledger := d.ledger.restore r }
  | none => d

/-- Counts every item of telemetry in a lost envelope. -/
def account (d : Depot) (reason : LossReason) (e : Envelope) : Depot :=
  { d with ledger := d.ledger.recordEnvelope reason e }

def noteOverflow (d : Depot) : Depot :=
  { d with monitor := d.monitor.map (·.recordOverflow d.clock.now) }

def noteRateLimit (d : Depot) : Depot :=
  { d with monitor := d.monitor.map (·.recordRateLimit d.clock.now) }

def failed (d : Depot) (o : Outbound) (e : SendError) : Depot :=
  let d := d.unload o
  match e with
  | .rateLimited _ => d.noteRateLimit
  | _ => d

end Depot

end Courier

import Courier.Trial.Batch
import Courier.Trial.Delivery

/-!
# Campaigns

Every kind of trial over one range of seeds. A scenario comes with its title, and its report is a summary
and the number of trials that failed.
-/

namespace Courier

structure Scenario where
  title : String
  report : Sums → List UInt64 → Except Overflow (String × Nat)

namespace Scenario

def delivery (title : String) (p : DeliveryPlan) : Scenario where
  title := "Delivery: " ++ title
  report s seeds :=
    let outcomes := seeds.map p.outcome
    (DeliveryOutcome.summary s outcomes).map fun text => (text, (outcomes.filter fun o => !o.passed).length)

def batch (title : String) (p : BatchPlan) : Scenario where
  title := "Batching: " ++ title
  report s seeds :=
    let outcomes := seeds.map p.outcome
    (BatchOutcome.summary s outcomes).map fun text => (text, (outcomes.filter fun o => !o.passed).length)

def all : List Scenario :=
  [delivery "calm" .calm, delivery "flaky transport" .flaky, delivery "chaos" .chaotic,
    batch "items" {}, batch "logs" { logs := true }, batch "items contention" .contended,
    batch "logs contention" { BatchPlan.contended with logs := true }]

def heading (s : Scenario) : String := "--- " ++ s.title ++ " ---"

end Scenario

namespace Campaign

def heading (first stop : UInt64) : String :=
  "=== Telemetry Delivery Simulator ===\n\nSeeds: " ++ toString first ++ ".." ++ toString stop ++ "\n"

/-- The end of the seeds, at the latest the last word. -/
def stop (first count : UInt64) : UInt64 :=
  if first + count < first then .ofNat (2 ^ 64 - 1) else first + count

def verdict (failed : Nat) : String :=
  if failed = 0 then "=== All scenarios passed ==="
  else "=== " ++ toString failed ++ " runs violated an invariant ==="

end Campaign

end Courier

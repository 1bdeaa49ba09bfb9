import Courier.Text.Word
import Courier.Trial.Campaign

/-!
# The trial program

Runs every scenario over the seeds that the environment names, and prints what they came to.
-/

namespace Courier

/-- A number in a variable of the environment. -/
def wordFromEnvironment (name : String) (absent : UInt64) : IO UInt64 := do
  let text ← IO.getEnv name
  return (text.bind fun s => Text.word? s.toList).getD absent

end Courier

open Courier in
def main : IO UInt32 := do
  let first ← wordFromEnvironment "DST_SEED_START" 0
  let stop := Campaign.stop first (← wordFromEnvironment "DST_SEEDS" 20)
  IO.println (Campaign.heading first stop)
  let mut failed := 0
  for s in Scenario.all do
    IO.println s.heading
    match s.report .checked (Verdict.seeds first stop) with
    | .ok (summary, n) =>
      IO.println (summary ++ "\n")
      failed := failed + n
    | .error _ => throw (IO.userError "attempt to add with overflow")
  IO.println (Campaign.verdict failed)
  return if failed = 0 then 0 else 1

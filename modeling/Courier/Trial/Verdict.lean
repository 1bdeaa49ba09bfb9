/-!
# Verdicts

A trial drives workers or batchers by chance, from a seed, and balances the books in the end. A summary says
how many trials passed, what they came to together, and why the others failed.
-/

namespace Courier

structure Verdict where
  seed : UInt64
  passed : Bool := true
  /-- What went wrong. -/
  message : Option String := none
  deriving DecidableEq, Repr, Inhabited

namespace Verdict

def failures (verdicts : List Verdict) : List Verdict := verdicts.filter fun v => !v.passed

def failureLine (v : Verdict) : String :=
  "\n  Seed " ++ toString v.seed ++ ": " ++ v.message.getD "unknown error"

def failureText (verdicts : List Verdict) : String :=
  match failures verdicts with
  | [] => ""
  | failed => "\n\nFailed seeds:" ++ String.join (failed.map failureLine)

def totalsLine (totals : List (String × UInt64)) : String :=
  ", ".intercalate (totals.map fun t => t.1 ++ ": " ++ toString t.2)

def summary (title : String) (totals : List (String × UInt64)) (verdicts : List Verdict) : String :=
  let failed := (failures verdicts).length
  title ++ ": " ++ toString (verdicts.length - failed) ++ "/" ++ toString verdicts.length ++
    " passed (" ++ toString failed ++ " failed)\n" ++ totalsLine totals ++ failureText verdicts

def seeds (first stop : UInt64) : List UInt64 :=
  (List.range (stop.toNat - first.toNat)).map fun i => first + i.toUInt64

end Verdict

end Courier

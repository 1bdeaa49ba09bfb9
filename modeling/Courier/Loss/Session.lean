import Courier.Loss.Ledger

/-!
# A ledger in use

A ledger with the clock that dates its reports, and the reports so far.
-/

namespace Courier

structure LedgerSession where
  clock : Clock
  ledger : Ledger
  reports : List LossReport := []

namespace LedgerSession

def advance (s : LedgerSession) (millis : UInt64) : LedgerSession :=
  { s with clock := s.clock.advanceMillis millis }

/-- Takes the losses out into a report, and keeps it. -/
def report (s : LedgerSession) : Option LossReport × LedgerSession :=
  let (r, ledger) := s.ledger.report s.clock.now
  (r, { s with ledger := ledger, reports := s.reports ++ r.toList })

end LedgerSession

end Courier

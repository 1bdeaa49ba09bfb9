import Courier.Pressure

/-!
# A monitor in use

A monitor with the clock that it reads, and the watch that checks it as virtual time passes.
-/

namespace Courier

structure PressureSession where
  clock : Clock
  monitor : PressureMonitor := {}
  watch : PressureWatch := .start 1 0
  /-- Virtual milliseconds since the start. -/
  time : Nat := 0
  deriving Inhabited

namespace PressureSession

/-- The interval is in virtual milliseconds. -/
def start (clock : Clock) (interval : Nat) : PressureSession :=
  { clock := clock, watch := .start interval 0 }

def now (s : PressureSession) : Timestamp := s.clock.now

def advance (s : PressureSession) (millis : UInt64) : PressureSession :=
  { s with clock := s.clock.advanceMillis millis }

def noteRateLimit (s : PressureSession) (t : Timestamp) : PressureSession :=
  { s with monitor := s.monitor.recordRateLimit t }

def noteOverflow (s : PressureSession) : PressureSession :=
  { s with monitor := s.monitor.recordOverflow s.now }

def check (s : PressureSession) (times : Nat) : PressureSession :=
  { s with monitor := s.monitor.checks s.now times }

/-- Lets virtual time pass, and the checks happen that are due in it. The clock stands still. -/
def sleep (s : PressureSession) (millis : Nat) : PressureSession :=
  let time := s.time + millis
  { s.check (s.watch.due time) with time := time, watch := s.watch.passed time }

def dispose (s : PressureSession) : PressureSession := { s with watch := s.watch.stop }

end PressureSession

end Courier

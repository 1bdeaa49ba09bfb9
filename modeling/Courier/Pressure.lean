import Courier.Time

/-!
# Pressure

Sampling is halved with every check that finds trouble, up to ten times, and is whole again after the first
check that finds none. Trouble is a queue that overflowed within two seconds or a rate limit that was hit
within ten.
-/

namespace Courier

structure PressureMonitor where
  /-- The last rate limit and the last overflow, as milliseconds plus one; zero if there was none. -/
  rateLimit : UInt64 := 0
  overflow : UInt64 := 0
  level : UInt32 := 0
  deriving DecidableEq, Repr, Inhabited

namespace PressureMonitor

def maxLevel : UInt32 := 10

def overflowWindow : Duration := .ofSeconds 2

def rateLimitWindow : Duration := .ofSeconds 10

/-- The last instant that a word holds is kept as the one before it. -/
def mark (t : Timestamp) : UInt64 := (t.after (.ofMillis 1)).millis

def recordRateLimit (m : PressureMonitor) (t : Timestamp) : PressureMonitor :=
  { m with rateLimit := mark t }

def recordOverflow (m : PressureMonitor) (now : Timestamp) : PressureMonitor :=
  { m with overflow := mark now }

def isWithin (stored : UInt64) (now : Timestamp) (window : Duration) : Bool :=
  -- zero stands for never, and any other word for the instant before it
  stored != 0 && now.since ⟨stored - 1⟩ < window

def isHealthy (m : PressureMonitor) (now : Timestamp) : Bool :=
  !isWithin m.overflow now overflowWindow && !isWithin m.rateLimit now rateLimitWindow

def check (m : PressureMonitor) (now : Timestamp) : PressureMonitor :=
  if m.isHealthy now then { m with level := 0 }
  else if m.level < maxLevel then { m with level := m.level + 1 }
  else m

/-- `2^(-level)`; the shift takes the level modulo 64. -/
def factorOf (level : UInt32) : Float := 1.0 / ((1 : UInt64) <<< level.toUInt64).toFloat

def factor (m : PressureMonitor) : Float := factorOf m.level

def adjusted (m : PressureMonitor) (rate : Float) : Float := rate * m.factor

def text (m : PressureMonitor) : String :=
  "BackpressureMonitor \x7b downsample_level: " ++ toString m.level ++ " \x7d"

end PressureMonitor

/-- Checks at a fixed interval, the first one after one interval. Times are virtual milliseconds. -/
structure PressureWatch where
  interval : Nat
  next : Nat
  stopped : Bool := false
  deriving DecidableEq, Repr, Inhabited

namespace PressureWatch

def start (interval now : Nat) : PressureWatch := ⟨interval, now + interval, false⟩

/-- How many checks are due up to and with `now`; none at all without an interval. -/
def due (w : PressureWatch) (now : Nat) : Nat :=
  if w.stopped || w.interval == 0 || now < w.next then 0 else (now - w.next) / w.interval + 1

def passed (w : PressureWatch) (now : Nat) : PressureWatch :=
  { w with next := w.next + w.due now * w.interval }

def stop (w : PressureWatch) : PressureWatch := { w with stopped := true }

end PressureWatch

def PressureMonitor.checks (m : PressureMonitor) (now : Timestamp) : Nat → PressureMonitor
  | 0 => m
  | n + 1 => (m.check now).checks now n

end Courier

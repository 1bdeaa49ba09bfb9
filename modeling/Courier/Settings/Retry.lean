import Courier.Decimal.Plain
import Courier.Settings.Error

/-!
# Retry policy

How often an envelope is sent at most, and how long to wait after each failure: the first pause grows by a
factor from one failure to the next, up to a bound.
-/

namespace Courier

structure RetryPolicy where
  maxAttempts : UInt32
  initialBackoff : Duration
  maxBackoff : Duration
  multiplier : Float
  deriving DecidableEq, Inhabited

namespace RetryPolicy

def standard : RetryPolicy := ⟨3, .ofMillis 100, .ofSeconds 5, 2.0⟩

/-- Short pauses, for trials. -/
def quick : RetryPolicy := ⟨3, .ofMillis 10, .ofMillis 50, 2.0⟩

/-- Sends once. -/
def never : RetryPolicy := { standard with maxAttempts := 1 }

def validate (p : RetryPolicy) : Except SettingsError Unit :=
  if p.maxAttempts < 1 then
    .error (.retryPolicy ("max_attempts must be at least 1, got " ++ toString p.maxAttempts))
  else if !p.multiplier.isFinite || p.multiplier < 1.0 then
    .error (.retryPolicy ("multiplier must be finite and at least 1.0, got " ++
      Decimal.plain p.multiplier))
  else if p.maxBackoff < p.initialBackoff then
    .error (.retryPolicy ("initial_backoff " ++ p.initialBackoff.text ++
      " exceeds max_backoff " ++ p.maxBackoff.text))
  else .ok ()

/-- Whether an envelope is sent again after this many failures. -/
def allows (p : RetryPolicy) (failures : UInt32) : Bool := failures < p.maxAttempts

/-- `r · a ^ n` by repeated squaring, lowest bit first. -/
def powerOnto (r a : Float) (n : Nat) : Float :=
  if n = 0 then r
  else
    let r := if n % 2 = 1 then r * a else r
    if n / 2 = 0 then r else powerOnto r (a * a) (n / 2)
termination_by n
decreasing_by omega

/-- The lesser of two doubles; one that is no number is passed over. -/
def lesser (a b : Float) : Float :=
  if a.isNaN then b else if b.isNaN then a else if b < a then b else a

def millisAsFloat (d : Duration) : Float := Float.ofScientific d.wholeMillis false 0

/-- The pause after this failure, counted from one. -/
def backoff (p : RetryPolicy) (failure : UInt32) : Duration :=
  let exponent := min (failure.toNat - 1) 63
  let grown := millisAsFloat p.initialBackoff * powerOnto 1.0 p.multiplier exponent
  .ofMillis (lesser grown (millisAsFloat p.maxBackoff)).toUInt64

end RetryPolicy

end Courier

import Courier.Settings.Retry

/-!
# Settings of delivery
-/

namespace Courier

structure BatchSettings where
  maxSize : UInt64
  flushInterval : Duration
  deriving DecidableEq, Inhabited

structure PressureSettings where
  enabled : Bool
  checkInterval : Duration
  deriving DecidableEq, Inhabited

structure Settings where
  /-- Envelopes that wait, the one being sent included. -/
  queueCapacity : UInt64
  /-- How long a shutdown drains the queue; at zero it gives up at once. -/
  shutdownTimeout : Duration
  flushTimeout : Duration
  /-- Whether losses are reported with outgoing envelopes. -/
  reportLosses : Bool
  /-- Where envelopes are kept over a restart. -/
  cacheDir : Option String
  cacheCapacity : UInt64
  retry : RetryPolicy
  batch : BatchSettings
  pressure : PressureSettings
  deriving DecidableEq, Inhabited

namespace BatchSettings

def standard : BatchSettings := ⟨100, .ofSeconds 5⟩

def validate (b : BatchSettings) : Except SettingsError Unit :=
  if b.maxSize < 1 then .error (.batchSize b.maxSize)
  else if b.flushInterval = .zero ∨ b.flushInterval = .forever then
    .error (.flushInterval b.flushInterval)
  else .ok ()

end BatchSettings

def PressureSettings.standard : PressureSettings := ⟨false, .ofSeconds 10⟩

namespace Settings

def standard : Settings where
  queueCapacity := 30
  shutdownTimeout := .ofSeconds 2
  flushTimeout := .ofSeconds 2
  reportLosses := true
  cacheDir := none
  cacheCapacity := 30
  retry := .standard
  batch := .standard
  pressure := .standard

/-- A small queue and short waits, for trials. -/
def small : Settings where
  queueCapacity := 8
  shutdownTimeout := .ofMillis 500
  flushTimeout := .ofMillis 500
  reportLosses := true
  cacheDir := none
  cacheCapacity := 8
  retry := .quick
  batch := ⟨4, .ofMillis 100⟩
  pressure := .standard

def validate (s : Settings) : Except SettingsError Unit :=
  if s.queueCapacity < 1 then .error (.queueCapacity s.queueCapacity)
  else if s.cacheCapacity < 1 then .error (.cacheCapacity s.cacheCapacity)
  else if s.pressure.enabled ∧ s.pressure.checkInterval = .zero then
    .error (.checkInterval s.pressure.checkInterval)
  else
    match s.retry.validate with
    | .error e => .error e
    | .ok _ => s.batch.validate

end Settings

end Courier

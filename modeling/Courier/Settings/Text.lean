import Courier.Json.Reader
import Courier.Json.Record
import Courier.Json.Writer
import Courier.Settings.Basic

/-!
# Written settings

Durations are written as whole milliseconds of 64 bits. What is left out has its standard value.
-/

namespace Courier

/-- A record that is written with more fields than it has. -/
inductive Surplus
  | refused
  | ignored
  deriving DecidableEq, Inhabited

namespace Document

def duration? (d : Document) : Option Duration := d.natural?.map .ofMillis

/-- The fields of a record, where those at the end of a longer array are dropped if they may be. -/
def settings? (surplus : Surplus) (fields : List String) : Document → Option Record
  | arr items =>
    match surplus with
    | .refused => Record.ofDocument? fields (arr items)
    | .ignored => Record.ofDocument? fields (arr (items.take fields.length))
  | d => Record.ofDocument? fields d

end Document

def durationJson (d : Duration) : Json := .ofNat d.millis

namespace RetryPolicy

def toJson (p : RetryPolicy) : Json :=
  .obj [
    ("max_attempts", .ofNat p.maxAttempts.toUInt64),
    ("initial_backoff", durationJson p.initialBackoff),
    ("max_backoff", durationJson p.maxBackoff),
    ("multiplier", .ofFloat p.multiplier)]

def ofDocument? (surplus : Surplus) (d : Document) : Option RetryPolicy := do
  let r ← d.settings? surplus ["max_attempts", "initial_backoff", "max_backoff", "multiplier"]
  let attempts ← r.optional "max_attempts" (Document.below? (2 ^ 32)) standard.maxAttempts.toNat
  let initial ← r.optional "initial_backoff" Document.duration? standard.initialBackoff
  let most ← r.optional "max_backoff" Document.duration? standard.maxBackoff
  let multiplier ← r.optional "multiplier" Document.float? standard.multiplier
  return ⟨attempts.toUInt32, initial, most, multiplier⟩

end RetryPolicy

namespace BatchSettings

def toJson (b : BatchSettings) : Json :=
  .obj [("max_batch_size", .ofNat b.maxSize), ("flush_interval", durationJson b.flushInterval)]

def ofDocument? (surplus : Surplus) (d : Document) : Option BatchSettings := do
  let r ← d.settings? surplus ["max_batch_size", "flush_interval"]
  let size ← r.optional "max_batch_size" Document.natural? standard.maxSize
  let interval ← r.optional "flush_interval" Document.duration? standard.flushInterval
  return ⟨size, interval⟩

end BatchSettings

namespace PressureSettings

def toJson (p : PressureSettings) : Json :=
  .obj [("enabled", .bool p.enabled), ("check_interval", durationJson p.checkInterval)]

def ofDocument? (surplus : Surplus) (d : Document) : Option PressureSettings := do
  let r ← d.settings? surplus ["enabled", "check_interval"]
  let enabled ← r.optional "enabled" Document.bool? standard.enabled
  let interval ← r.optional "check_interval" Document.duration? standard.checkInterval
  return ⟨enabled, interval⟩

end PressureSettings

namespace Settings

def toJson (s : Settings) : Json :=
  .obj [
    ("max_queue_items", .ofNat s.queueCapacity),
    ("shutdown_timeout", durationJson s.shutdownTimeout),
    ("flush_timeout", durationJson s.flushTimeout),
    ("send_client_reports", .bool s.reportLosses),
    ("cache_dir", match s.cacheDir with
      | some dir => .str dir
      | none => .null),
    ("max_cache_items", .ofNat s.cacheCapacity),
    ("retry", s.retry.toJson),
    ("batch", s.batch.toJson),
    ("backpressure", s.pressure.toJson)]

def text (s : Settings) : String := s.toJson.text

def ofDocument? (surplus : Surplus) (d : Document) : Option Settings := do
  let r ← d.settings? surplus
    ["max_queue_items", "shutdown_timeout", "flush_timeout", "send_client_reports", "cache_dir",
      "max_cache_items", "retry", "batch", "backpressure"]
  let queue ← r.optional "max_queue_items" Document.natural? standard.queueCapacity
  let shutdown ← r.optional "shutdown_timeout" Document.duration? standard.shutdownTimeout
  let flush ← r.optional "flush_timeout" Document.duration? standard.flushTimeout
  let reports ← r.optional "send_client_reports" Document.bool? standard.reportLosses
  let dir ← r.optional "cache_dir" (Document.nullable? Document.text?) standard.cacheDir
  let cache ← r.optional "max_cache_items" Document.natural? standard.cacheCapacity
  let retry ← r.optional "retry" (RetryPolicy.ofDocument? surplus) standard.retry
  let batch ← r.optional "batch" (BatchSettings.ofDocument? surplus) standard.batch
  let pressure ← r.optional "backpressure" (PressureSettings.ofDocument? surplus) standard.pressure
  return ⟨queue, shutdown, flush, reports, dir, cache, retry, batch, pressure⟩

def ofJsonText? (s : String) : Option Settings :=
  (Document.ofString? s).bind (ofDocument? .refused)

def ofJson? (v : Json) : Option Settings := ofDocument? .refused (.ofJson v)

/-- These settings with some of their written members replaced. -/
def replaced? (s : Settings) (changes : Json) : Option Settings := ofJson? (s.toJson.merge changes)

end Settings

end Courier

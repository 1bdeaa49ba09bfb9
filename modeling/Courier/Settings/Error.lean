import Courier.Time

/-!
# Settings that are refused
-/

namespace Courier

inductive SettingsError
  | bufferCapacity (n : UInt64)
  | batchSize (n : UInt64)
  | flushInterval (d : Duration)
  | queueCapacity (n : UInt64)
  | cacheCapacity (n : UInt64)
  | retryPolicy (reason : String)
  | checkInterval (d : Duration)
  | missingCacheDir
  /-- The text is not a settings file. -/
  | parse
  deriving DecidableEq, Repr, Inhabited

namespace SettingsError

/-- The text of an error that this library words. -/
def message? : SettingsError → Option String
  | bufferCapacity n => some ("batch capacity must be at least 2, got " ++ toString n)
  | batchSize n => some ("max batch size must be at least 1, got " ++ toString n)
  | flushInterval d =>
    some ("flush interval must be a positive finite duration, got " ++ d.text)
  | queueCapacity n => some ("queue capacity must be at least 1, got " ++ toString n)
  | cacheCapacity n => some ("cache capacity must be at least 1, got " ++ toString n)
  | retryPolicy reason => some ("invalid retry policy: " ++ reason)
  | checkInterval d => some ("invalid backpressure check interval: " ++ d.text)
  | missingCacheDir => some "durable delivery requires a cache directory"
  | parse => none

end SettingsError

end Courier

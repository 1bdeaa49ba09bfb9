/-!
# Losses

An item that is dropped on this side is counted by why it was dropped and what kind of data it was.
-/

namespace Courier

inductive LossReason
  | queueOverflow
  | cacheOverflow
  | ratelimitBackoff
  | networkError
  | sampleRate
  | beforeSend
  | eventProcessor
  | backpressure
  | sendError
  | bufferOverflow
  deriving DecidableEq, Repr, Inhabited

inductive Category
  | default
  | error
  | transaction
  | session
  | attachment
  | security
  | profile
  | span
  | logItem
  deriving DecidableEq, Repr, Inhabited

namespace LossReason

def all : List LossReason :=
  [queueOverflow, cacheOverflow, ratelimitBackoff, networkError, sampleRate, beforeSend,
    eventProcessor, backpressure, sendError, bufferOverflow]

def name : LossReason → String
  | queueOverflow => "queue_overflow"
  | cacheOverflow => "cache_overflow"
  | ratelimitBackoff => "ratelimit_backoff"
  | networkError => "network_error"
  | sampleRate => "sample_rate"
  | beforeSend => "before_send"
  | eventProcessor => "event_processor"
  | backpressure => "backpressure"
  | sendError => "send_error"
  | bufferOverflow => "buffer_overflow"

def ofName? (s : String) : Option LossReason := all.find? (·.name == s)

theorem mem_all (r : LossReason) : r ∈ all := by cases r <;> decide

end LossReason

namespace Category

def all : List Category :=
  [default, error, transaction, session, attachment, security, profile, span, logItem]

def name : Category → String
  | default => "default"
  | error => "error"
  | transaction => "transaction"
  | session => "session"
  | attachment => "attachment"
  | security => "security"
  | profile => "profile"
  | span => "span"
  | logItem => "log_item"

def ofName? (s : String) : Option Category := all.find? (·.name == s)

theorem mem_all (c : Category) : c ∈ all := by cases c <;> decide

end Category

/-- What is counted apart from what. -/
structure Loss where
  reason : LossReason
  category : Category
  deriving DecidableEq, Repr, Inhabited

namespace Loss

def all : List Loss := LossReason.all.flatMap fun r => Category.all.map fun c => ⟨r, c⟩

theorem mem_all (l : Loss) : l ∈ all := by
  simp only [all, List.mem_flatMap, List.mem_map]
  exact ⟨l.reason, l.reason.mem_all, l.category, l.category.mem_all, rfl⟩

end Loss

end Courier

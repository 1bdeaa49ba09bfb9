import Courier.Arithmetic

/-!
# Time

Instants are milliseconds since the Unix epoch in a 64-bit word. Durations are nanoseconds, up to
`2^64 - 1` seconds and 999999999 nanoseconds.
-/

namespace Courier

/-! ## Durations -/

structure Duration where
  nanos : Nat
  deriving DecidableEq, Repr, Inhabited

namespace Duration

def zero : Duration := ⟨0⟩

def forever : Duration := ⟨2 ^ 64 * 10 ^ 9 - 1⟩

def ofMillis (ms : UInt64) : Duration := ⟨ms.toNat * 10 ^ 6⟩

def ofSeconds (s : Nat) : Duration := ⟨s * 10 ^ 9⟩

def seconds (d : Duration) : Nat := d.nanos / 10 ^ 9

def subsecNanos (d : Duration) : Nat := d.nanos % 10 ^ 9

/-- Whole milliseconds, in full. -/
def wholeMillis (d : Duration) : Nat := d.nanos / 10 ^ 6

/-- Whole milliseconds, modulo `2^64`. -/
def millis (d : Duration) : UInt64 := d.wholeMillis.toUInt64

instance : LT Duration := ⟨fun a b => a.nanos < b.nanos⟩
instance : LE Duration := ⟨fun a b => a.nanos ≤ b.nanos⟩
instance (a b : Duration) : Decidable (a < b) := inferInstanceAs (Decidable (a.nanos < b.nanos))
instance (a b : Duration) : Decidable (a ≤ b) := inferInstanceAs (Decidable (a.nanos ≤ b.nanos))

/-! The text of a duration: the largest unit that is reached, and as many digits after the point as it
takes. -/

def fractionText (digits : Nat) (n : Nat) : String :=
  let padded := ("".pushn '0' (digits - (toString n).length) ++ toString n).toList
  let kept := (padded.reverse.dropWhile (· = '0')).reverse
  if n = 0 || kept.isEmpty then "" else "." ++ String.ofList kept

def unitText (d : Duration) (digits : Nat) (unit : String) : String :=
  toString (d.nanos / 10 ^ digits) ++ fractionText digits (d.nanos % 10 ^ digits) ++ unit

def text (d : Duration) : String :=
  if 10 ^ 9 ≤ d.nanos then d.unitText 9 "s"
  else if 10 ^ 6 ≤ d.nanos then d.unitText 6 "ms"
  else if 10 ^ 3 ≤ d.nanos then d.unitText 3 "µs"
  else d.unitText 0 "ns"

end Duration

/-! ## Instants -/

structure Timestamp where
  millis : UInt64
  deriving DecidableEq, Repr, Inhabited

namespace Timestamp

def zero : Timestamp := ⟨0⟩

def seconds (t : Timestamp) : Float := t.millis.toFloat / 1000.0

/-- The milliseconds from `earlier` to `t`, none if `earlier` is the later one. -/
def millisSince (t earlier : Timestamp) : UInt64 :=
  if t.millis < earlier.millis then 0 else t.millis - earlier.millis

def since (t earlier : Timestamp) : Duration := .ofMillis (t.millisSince earlier)

/-- `d` before `t`, at the earliest the epoch. -/
def back (t : Timestamp) (d : Duration) : Timestamp := ⟨t.millisSince ⟨d.millis⟩⟩

/-- `d` after `t`, at the latest the last millisecond that a word holds. -/
def after (t : Timestamp) (d : Duration) : Timestamp :=
  let sum := t.millis + d.millis
  if sum < t.millis then ⟨.ofNat (2 ^ 64 - 1)⟩ else ⟨sum⟩

end Timestamp

/-! ## A clock that is moved by hand -/

structure Clock where
  now : Timestamp
  deriving DecidableEq, Repr, Inhabited

namespace Clock

/-- Moves the clock on; it wraps at `2^64` milliseconds. -/
def advanceMillis (c : Clock) (ms : UInt64) : Clock := ⟨⟨c.now.millis + ms⟩⟩

def advance (c : Clock) (d : Duration) : Clock := c.advanceMillis d.millis

def elapsed (c : Clock) (since : Timestamp) : Duration := c.now.since since

def hasElapsed (c : Clock) (since : Timestamp) (d : Duration) : Bool := d ≤ c.elapsed since

end Clock

end Courier

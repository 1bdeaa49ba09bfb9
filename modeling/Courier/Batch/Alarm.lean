import Courier.Time

/-!
# Alarms

An alarm goes off once, a while after it was armed. Arming it again replaces what it was armed for.
-/

namespace Courier

structure Alarm (κ : Type) where
  /-- The delay, and what the alarm is for. -/
  armed : Option (Duration × κ) := none
  armCount : Nat := 0
  deriving Inhabited

namespace Alarm

variable {κ : Type}

def isArmed (a : Alarm κ) : Bool := a.armed.isSome

def delay? (a : Alarm κ) : Option Duration := a.armed.map Prod.fst

def arm (a : Alarm κ) (delay : Duration) (what : κ) : Alarm κ :=
  ⟨some (delay, what), a.armCount + 1⟩

def disarm (a : Alarm κ) : Alarm κ := { a with armed := none }

def fire (a : Alarm κ) : Option κ × Alarm κ := (a.armed.map Prod.snd, a.disarm)

end Alarm

end Courier

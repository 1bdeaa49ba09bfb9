import Courier.Settings.Error

/-!
# Slot buffers

A buffer of numbered cells. Adding claims the next number, counted from one, and fills its cell; the number
after the last cell means that the buffer is full and is claimed at most once. Draining puts fresh cells
in place of the old ones.
-/

namespace Courier

structure SlotBuffer (α : Type) where
  capacity : Nat
  claimed : Nat := 0
  cells : Array (Option α)

/-- What became of an addition. -/
structure Added (α : Type) where
  slot : Nat
  /-- The item, if it was not stored. -/
  rejected : Option α

namespace SlotBuffer

variable {α : Type}

def fresh (capacity : Nat) : SlotBuffer α := ⟨capacity, 0, Array.replicate capacity none⟩

def make (capacity : UInt64) : Except SettingsError (SlotBuffer α) :=
  if capacity < 2 then .error (.bufferCapacity capacity) else .ok (fresh capacity.toNat)

def isAdded (a : Added α) : Bool := a.rejected.isNone

/-- Claims the next slot; there is one more of them than cells. -/
def claim (b : SlotBuffer α) : Nat × SlotBuffer α :=
  if b.claimed ≤ b.capacity then (b.claimed + 1, { b with claimed := b.claimed + 1 })
  else (b.capacity + 1, b)

def fill (b : SlotBuffer α) (slot : Nat) (x : α) : Option α × SlotBuffer α :=
  match b.cells[slot - 1]? with
  | some none => (none, { b with cells := b.cells.setIfInBounds (slot - 1) (some x) })
  | _ => (some x, b)

def add (b : SlotBuffer α) (x : α) : Added α × SlotBuffer α :=
  let (slot, b) := b.claim
  if b.capacity < slot then (⟨slot, some x⟩, b)
  else
    let (rejected, b) := b.fill slot x
    (⟨slot, rejected⟩, b)

def addAll (b : SlotBuffer α) : List α → Nat × SlotBuffer α
  | [] => (0, b)
  | x :: xs =>
    let (r, b) := b.add x
    let (n, b) := addAll b xs
    (if isAdded r then n + 1 else n, b)

def count (b : SlotBuffer α) : Nat := min b.claimed b.capacity

def isEmpty (b : SlotBuffer α) : Bool := b.claimed == 0

def isFull (b : SlotBuffer α) : Bool := b.capacity ≤ b.claimed

def toList (b : SlotBuffer α) : List α := (b.cells.toList.take b.count).filterMap id

/-- Takes out the first `len` items; those after them are gone. -/
def drainUpTo (b : SlotBuffer α) (len : Nat) : List α × SlotBuffer α :=
  ((b.cells.toList.take (min b.count len)).filterMap id, fresh b.capacity)

def drain (b : SlotBuffer α) : List α × SlotBuffer α := b.drainUpTo b.capacity

def text (b : SlotBuffer α) : String :=
  "BatchBuffer \x7b capacity: " ++ toString b.capacity ++ ", count: " ++ toString b.count ++ " \x7d"

end SlotBuffer

end Courier

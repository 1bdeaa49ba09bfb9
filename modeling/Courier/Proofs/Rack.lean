import Courier.Proofs.Slots

/-!
# Slot buffers as racks

A rack is a list with a bound. Whatever is done to a slot buffer, it replies what a rack does; the cells in front are
the ones that are filled, no slot is filled twice, and no slot that was claimed is found empty.
-/

namespace Courier

inductive SlotAct (α : Type)
  | add (x : α)
  | drain
  | drainUpTo (len : Nat)
  | count
  | isEmpty
  | isFull

inductive SlotReply (α : Type)
  | added (slot : Nat) (rejected : Option α)
  | drained (items : List α)
  | count (n : Nat)
  | yes (b : Bool)

/-! ## Racks -/

/-- A list, and how many items were offered since it was last emptied. -/
structure Rack (α : Type) where
  items : List α := []
  offered : Nat := 0

namespace Rack

variable {α : Type}

def does (size : Nat) (r : Rack α) : SlotAct α → SlotReply α × Rack α
  | .add x =>
    if r.offered + 1 ≤ size then (.added (r.offered + 1) none, ⟨r.items ++ [x], r.offered + 1⟩)
    else (.added (size + 1) (some x), ⟨r.items, r.offered + 1⟩)
  | .drain => (.drained r.items, {})
  | .drainUpTo len => (.drained (r.items.take len), {})
  | .count => (.count r.items.length, r)
  | .isEmpty => (.yes (r.items.length == 0), r)
  | .isFull => (.yes (r.items.length == size), r)

def run (size : Nat) (r : Rack α) : List (SlotAct α) → List (SlotReply α) × Rack α
  | [] => ([], r)
  | a :: acts =>
    let (reply, r) := r.does size a
    let (replies, r) := run size r acts
    (reply :: replies, r)

end Rack

namespace SlotBuffer

variable {α : Type} {b : SlotBuffer α} {r : Rack α} {xs : List α} {size : Nat}

/-! ## What is done to a buffer -/

/-- A drain, unless it gives out fewer items than were claimed. -/
def drained? (claimed : Nat) (out : List α × SlotBuffer α) : Option (SlotReply α × SlotBuffer α) :=
  if out.1.length = claimed then some (.drained out.1, out.2) else none

/-- An addition fails if the slot that it claims was filled before, so that the item is handed back all the same. -/
def does? (b : SlotBuffer α) : SlotAct α → Option (SlotReply α × SlotBuffer α)
  | .add x =>
    let (a, b') := b.add x
    if a.slot ≤ b.capacity ∧ a.rejected.isSome then none else some (.added a.slot a.rejected, b')
  | .drain => drained? b.count b.drain
  | .drainUpTo len => drained? (min b.count len) (b.drainUpTo len)
  | .count => some (.count b.count, b)
  | .isEmpty => some (.yes b.isEmpty, b)
  | .isFull => some (.yes b.isFull, b)

def run? (b : SlotBuffer α) : List (SlotAct α) → Option (List (SlotReply α) × SlotBuffer α)
  | [] => some ([], b)
  | a :: acts =>
    match b.does? a with
    | some (reply, b) => (run? b acts).map fun (replies, b) => (reply :: replies, b)
    | none => none

/-! ## A buffer and its rack -/

/-- A buffer with so many cells holds what is on the rack, and has claimed a slot for each item that was offered, up to
the slot behind the last cell. -/
structure Mirrors (b : SlotBuffer α) (size : Nat) (r : Rack α) : Prop where
  capacity : b.capacity = size
  holds : b.Holds r.items
  claimed : b.claimed = min r.offered (size + 1)

theorem mirrors_fresh (size : Nat) : (fresh size : SlotBuffer α).Mirrors size {} := by
  refine ⟨rfl, holds_fresh size, ?_⟩
  rw [Nat.zero_min]
  rfl

theorem Mirrors.length (h : b.Mirrors size r) : r.items.length = min r.offered size := by
  have hclaimed := h.claimed
  have hfits := h.holds.fits
  rw [h.capacity] at hfits
  rcases h.holds.claimed with hc | ⟨hl, hc⟩
  · omega
  · rw [h.capacity] at hl hc
    omega

theorem Mirrors.after_add (h : b.Mirrors size r) {x : α} (hx : (b.add x).2.Holds xs) :
    (b.add x).2.Mirrors size ⟨xs, r.offered + 1⟩ := by
  have hclaimed := h.claimed
  have hnext : (b.add x).2.claimed = min (r.offered + 1) (size + 1) := by
    rw [add_claimed, h.capacity]
    split <;> omega
  exact ⟨(b.add_capacity x).trans h.capacity, hx, hnext⟩

theorem Mirrors.add (h : b.Mirrors size r) (x : α) :
    ∃ b', b.does? (.add x) = some ((r.does size (.add x)).1, b') ∧ b'.Mirrors size (r.does size (.add x)).2 := by
  have hlength := h.length
  refine ⟨(b.add x).2, ?_⟩
  by_cases hroom : r.offered + 1 ≤ size
  · have hlen : r.items.length = r.offered := by omega
    obtain ⟨hadd, hholds⟩ := h.holds.add (by rw [h.capacity]; omega) x
    rw [Rack.does, if_pos hroom]
    refine ⟨?_, h.after_add hholds⟩
    simp only [SlotBuffer.does?, hadd, hlen, Option.isSome_none, Bool.false_eq_true, and_false, if_false]
  · have hlen : r.items.length = b.capacity := by
      rw [h.capacity]
      omega
    obtain ⟨hadd, hholds⟩ := h.holds.add_full hlen x
    rw [Rack.does, if_neg hroom]
    refine ⟨?_, h.after_add hholds⟩
    simp only [SlotBuffer.does?, hadd]
    rw [if_neg (by omega), h.capacity]

theorem Mirrors.drained? (h : b.Mirrors size r) {items : List α} {claimed : Nat} {out : List α × SlotBuffer α}
    (hout : out = (items, fresh b.capacity)) (hl : items.length = claimed) :
    ∃ b', drained? claimed out = some (.drained items, b') ∧ b'.Mirrors size {} := by
  refine ⟨fresh b.capacity, ?_, ?_⟩
  · rw [SlotBuffer.drained?, hout, if_pos hl]
  · rw [h.capacity]
    exact mirrors_fresh size

/-- One step: a buffer replies what its rack does, and no slot is filled twice or found empty. -/
theorem Mirrors.does? (h : b.Mirrors size r) (hs : 0 < size) (a : SlotAct α) :
    ∃ b', b.does? a = some ((r.does size a).1, b') ∧ b'.Mirrors size (r.does size a).2 := by
  cases a with
  | add x => exact h.add x
  | drain => exact h.drained? h.holds.drain h.holds.count.symm
  | drainUpTo len =>
    refine h.drained? (h.holds.drainUpTo len) ?_
    rw [List.length_take, h.holds.count, Nat.min_comm]
  | count =>
    refine ⟨b, ?_, h⟩
    rw [SlotBuffer.does?, Rack.does, h.holds.count]
  | isEmpty =>
    refine ⟨b, ?_, h⟩
    rw [SlotBuffer.does?, Rack.does, h.holds.isEmpty (by rw [h.capacity]; exact hs)]
    cases r.items <;> rfl
  | isFull =>
    refine ⟨b, ?_, h⟩
    rw [SlotBuffer.does?, Rack.does, h.holds.isFull, h.capacity]
    rfl

theorem Mirrors.run? (h : b.Mirrors size r) (hs : 0 < size) (acts : List (SlotAct α)) :
    ∃ b', b.run? acts = some ((r.run size acts).1, b') ∧ b'.Mirrors size (r.run size acts).2 := by
  induction acts generalizing b r with
  | nil => exact ⟨b, rfl, h⟩
  | cons a acts ih =>
    obtain ⟨b₁, hstep, h₁⟩ := h.does? hs a
    obtain ⟨b₂, hrun, h₂⟩ := ih h₁
    refine ⟨b₂, ?_, h₂⟩
    rw [SlotBuffer.run?, hstep]
    simp only [hrun, Option.map_some]
    rfl

theorem make_fresh {capacity : UInt64} (hc : 2 ≤ capacity) :
    make capacity = .ok (fresh capacity.toNat : SlotBuffer α) := by
  unfold make
  rw [if_neg (UInt64.not_lt.mpr hc)]

/-- Whatever is done to a new buffer with two cells or more, nothing of it fails and all replies are those of a rack.
The buffer then has the items of the rack in its first cells, as many as were claimed and fit, and nothing in the
others; the slots that are claimed are those of the items offered since the last drain, of which one at most is behind
the last cell. -/
theorem run_rack {capacity : UInt64} {acts : List (SlotAct α)} {replies : List (SlotReply α)} (hc : 2 ≤ capacity)
    (hr : ({} : Rack α).run capacity.toNat acts = (replies, r)) :
    ∃ first b, make capacity = .ok first ∧ first.run? acts = some (replies, b) ∧ b.toList = r.items ∧
      b.claimed = min r.offered (capacity.toNat + 1) ∧ b.claimed ≤ capacity.toNat + 1 ∧
      b.cells.size = capacity.toNat ∧ ∀ i, (∃ x, b.cells[i]? = some (some x)) ↔ i < min b.claimed capacity.toNat := by
  have hsize : 2 ≤ capacity.toNat := UInt64.le_iff_toNat_le.mp hc
  obtain ⟨b, hrun, h⟩ := (mirrors_fresh capacity.toNat).run? (by omega) acts
  rw [hr] at hrun h
  have hclaimed := h.claimed
  refine ⟨fresh capacity.toNat, b, make_fresh hc, hrun, h.holds.toList, hclaimed, by omega, ?_, ?_⟩
  · rw [h.holds.size_cells, h.capacity]
  · intro i
    rw [h.holds.filled_iff, h.length]
    omega

/-- The buffer is filled and offered more than it has room for, drained in part, filled again and drained. -/
def refillActs : List (SlotAct Nat) :=
  [.isEmpty, .add 1, .add 2, .isFull, .add 3, .isFull, .add 4, .add 5, .count, .drainUpTo 2, .isEmpty, .add 6, .drain,
    .drain, .add 7, .drainUpTo 9, .add 8, .add 9]

theorem run_rack_refilled :
    (2 : UInt64) ≤ 3 ∧ ∃ first b, make 3 = .ok first ∧
      first.run? refillActs =
        some ([.yes true, .added 1 none, .added 2 none, .yes false, .added 3 none, .yes true, .added 4 (some 4),
          .added 4 (some 5), .count 3, .drained [1, 2], .yes true, .added 1 none, .drained [6], .drained [],
          .added 1 none, .drained [7], .added 1 none, .added 2 none], b) ∧
      b.toList = [8, 9] ∧ b.claimed = 2 ∧ b.claimed ≤ 4 ∧ b.cells.size = 3 ∧
      ∀ i, (∃ x, b.cells[i]? = some (some x)) ↔ i < min b.claimed 3 := by
  have hc : (2 : UInt64) ≤ 3 := by decide
  have hr : ({} : Rack Nat).run (3 : UInt64).toNat refillActs = (_, ⟨[8, 9], 2⟩) := rfl
  exact ⟨hc, run_rack hc hr⟩

end SlotBuffer

end Courier

import Courier.Batch.Slots

/-!
# Slot buffers as lists

A slot buffer holds a list. What is added while there is room goes to the end of the list, and draining takes out
all of it.
-/

namespace Courier.SlotBuffer

variable {α : Type} {b : SlotBuffer α} {xs : List α}

/-- The cells are filled with these items in front. Once an item was refused, one slot more is claimed than there
are cells. -/
structure Holds (b : SlotBuffer α) (xs : List α) : Prop where
  cells : b.cells.toList = xs.map some ++ List.replicate (b.capacity - xs.length) none
  claimed : b.claimed = xs.length ∨ xs.length = b.capacity ∧ b.claimed = b.capacity + 1
  fits : xs.length ≤ b.capacity

@[simp] theorem fresh_capacity (n : Nat) : (fresh n : SlotBuffer α).capacity = n := rfl

theorem holds_fresh (n : Nat) : (fresh n : SlotBuffer α).Holds [] := by
  constructor
  · simp [fresh]
  · left
    rfl
  · simp

theorem Holds.count (h : b.Holds xs) : b.count = xs.length := by
  have hf := h.fits
  unfold SlotBuffer.count
  rcases h.claimed with hc | ⟨hl, hc⟩ <;> omega

theorem Holds.isEmpty (h : b.Holds xs) (hb : 0 < b.capacity) : b.isEmpty = xs.isEmpty := by
  unfold SlotBuffer.isEmpty
  cases xs with
  | nil =>
    rcases h.claimed with hc | ⟨hl, -⟩
    · simp [hc]
    · simp only [List.length_nil] at hl
      omega
  | cons x xs =>
    rcases h.claimed with hc | ⟨-, hc⟩ <;> simp [hc]

theorem Holds.isFull (h : b.Holds xs) : b.isFull = decide (xs.length = b.capacity) := by
  have hf := h.fits
  unfold SlotBuffer.isFull
  apply decide_eq_decide.mpr
  rcases h.claimed with hc | ⟨hl, hc⟩ <;> omega

theorem Holds.take (h : b.Holds xs) {n : Nat} (hn : n ≤ xs.length) :
    (b.cells.toList.take n).filterMap id = xs.take n := by
  rw [h.cells, List.take_append_of_le_length (by rwa [List.length_map]), ← List.map_take, List.filterMap_map]
  simp

theorem Holds.toList (h : b.Holds xs) : b.toList = xs := by
  unfold SlotBuffer.toList
  rw [h.count, h.take (Nat.le_refl _), List.take_length]

theorem Holds.drainUpTo (h : b.Holds xs) (len : Nat) : b.drainUpTo len = (xs.take len, fresh b.capacity) := by
  unfold SlotBuffer.drainUpTo
  rw [h.count, h.take (Nat.min_le_left _ _), Nat.min_comm, ← List.take_eq_take_min]

theorem Holds.drain (h : b.Holds xs) : b.drain = (xs, fresh b.capacity) := by
  unfold SlotBuffer.drain
  rw [h.drainUpTo, List.take_of_length_le h.fits]

theorem Holds.size_cells (h : b.Holds xs) : b.cells.size = b.capacity := by
  have hf := h.fits
  rw [← Array.length_toList, h.cells, List.length_append, List.length_map, List.length_replicate]
  omega

/-- The cells in front are filled, as many as there are items, and no others. -/
theorem Holds.filled_iff (h : b.Holds xs) (i : Nat) : (∃ x, b.cells[i]? = some (some x)) ↔ i < xs.length := by
  rw [← Array.getElem?_toList, h.cells]
  by_cases hi : i < xs.length
  · rw [List.getElem?_append_left (by rwa [List.length_map]), List.getElem?_map, List.getElem?_eq_getElem hi]
    exact ⟨fun _ => hi, fun _ => ⟨xs[i], rfl⟩⟩
  · refine ⟨?_, fun hlt => absurd hlt hi⟩
    rintro ⟨x, hx⟩
    rw [List.getElem?_append_right (by rw [List.length_map]; omega)] at hx
    cases List.eq_of_mem_replicate (List.mem_of_getElem? hx)

theorem Holds.eq_fresh (h : b.Holds []) (hb : 0 < b.capacity) : b = fresh b.capacity := by
  obtain ⟨capacity, claimed, cells⟩ := b
  have hclaimed : claimed = 0 := by
    rcases h.claimed with hc | ⟨hl, -⟩
    · exact hc
    · exact absurd hl (Nat.ne_of_lt hb)
  have hcells : cells = Array.replicate capacity none := by
    apply Array.toList_inj.mp
    rw [h.cells, Array.toList_replicate]
    rfl
  rw [hclaimed, hcells]
  rfl

/-! ## Adding -/

@[simp] theorem add_capacity (b : SlotBuffer α) (x : α) : (b.add x).2.capacity = b.capacity := by
  have hc : b.claim.2.capacity = b.capacity := by
    unfold claim
    split <;> rfl
  unfold add
  simp only
  split
  · exact hc
  · unfold fill
    split <;> exact hc

theorem add_claimed (b : SlotBuffer α) (x : α) :
    (b.add x).2.claimed = if b.claimed ≤ b.capacity then b.claimed + 1 else b.claimed := by
  have hfill (c : SlotBuffer α) (slot : Nat) : (c.fill slot x).2.claimed = c.claimed := by
    unfold fill
    split <;> rfl
  have hclaim : b.claim.2.claimed = if b.claimed ≤ b.capacity then b.claimed + 1 else b.claimed := by
    unfold claim
    split <;> rfl
  unfold add
  simp only
  split
  · exact hclaim
  · exact (hfill _ _).trans hclaim

theorem Holds.claim (h : b.Holds xs) (hl : xs.length < b.capacity) :
    b.claim = (xs.length + 1, { b with claimed := xs.length + 1 }) := by
  have hc : b.claimed = xs.length := by
    rcases h.claimed with hc | ⟨hn, -⟩
    · exact hc
    · omega
  unfold SlotBuffer.claim
  rw [if_pos (by omega), hc]

theorem Holds.vacant (h : b.Holds xs) (hl : xs.length < b.capacity) : b.cells[xs.length]? = some none := by
  rw [← Array.getElem?_toList, h.cells, List.getElem?_append_right (by simp), List.length_map, Nat.sub_self,
    List.getElem?_replicate, if_pos (by omega)]

theorem Holds.fill (h : b.Holds xs) (hl : xs.length < b.capacity) (x : α) :
    (b.cells.setIfInBounds xs.length (some x)).toList =
      (xs ++ [x]).map some ++ List.replicate (b.capacity - (xs ++ [x]).length) none := by
  -- The first empty cell is the one that is filled.
  have hr : b.capacity - xs.length = b.capacity - (xs.length + 1) + 1 := by omega
  rw [Array.toList_setIfInBounds, h.cells, List.set_append_right _ _ (by simp), List.length_map, Nat.sub_self, hr,
    List.replicate_succ, List.set_cons_zero]
  simp

/-- An item is added to the end, and its slot says how many there are then. -/
theorem Holds.add (h : b.Holds xs) (hl : xs.length < b.capacity) (x : α) :
    (b.add x).1 = ⟨xs.length + 1, none⟩ ∧ (b.add x).2.Holds (xs ++ [x]) := by
  have hv := h.vacant hl
  unfold SlotBuffer.add
  simp only [h.claim hl, SlotBuffer.fill, Nat.add_sub_cancel, hv]
  rw [if_neg (by omega)]
  refine ⟨rfl, ?_, ?_, ?_⟩
  · exact h.fill hl x
  · left
    simp
  · rw [List.length_append]
    exact hl

theorem Holds.add_full (h : b.Holds xs) (hl : xs.length = b.capacity) (x : α) :
    (b.add x).1 = ⟨b.capacity + 1, some x⟩ ∧ (b.add x).2.Holds xs := by
  have hclaim : b.claim = (b.capacity + 1, { b with claimed := b.capacity + 1 }) := by
    unfold SlotBuffer.claim
    rcases h.claimed with hc | ⟨-, hc⟩
    · rw [if_pos (by omega), hc, hl]
    · rw [if_neg (by omega), ← hc]
  unfold SlotBuffer.add
  simp only [hclaim]
  rw [if_pos (by omega)]
  refine ⟨rfl, ?_, ?_, ?_⟩
  · exact h.cells
  · right
    exact ⟨hl, rfl⟩
  · exact h.fits

end Courier.SlotBuffer

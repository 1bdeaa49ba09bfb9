import Courier.Batch.LogBuffer
import Courier.Proofs.Slots

/-!
# The statuses of a log buffer

From one drain to the next the entries that a buffer is free to take are told apart as the first one, those in
between and the last one; all others are refused. Nobody but the holder of the scope can drain or release, and what
is refused leaves no trace.
-/

namespace Courier

/-! ## What is done to a buffer -/

inductive BufferAct
  | add (e : LogEntry)
  | tryFlush
  /-- What is in the buffer is taken out, by the holder of the scope. -/
  | drain
  /-- The holder of the scope gives it up. -/
  | release
  | dispose
  | look

inductive BufferReply
  | added (status : AddStatus) (rejected : Option LogEntry)
  | entered (yes : Bool)
  | drained (entries : List LogEntry)
  | seen (capacity : Nat) (timeout : Duration) (count : Nat) (isEmpty isFull disposed : Bool)
  | done

/-- The acts so far with their replies, the last one first. -/
abbrev BufferPast := List (BufferAct × BufferReply)

namespace LogBuffer

/-- There is no scope to drain or to release unless somebody holds it. -/
def does? (b : LogBuffer) : BufferAct → Option (BufferReply × LogBuffer)
  | .add e =>
    let (status, rejected, b) := b.add e
    some (.added status rejected, b)
  | .tryFlush =>
    match b.tryFlush with
    | some b => some (.entered true, b)
    | none => some (.entered false, b)
  | .drain =>
    if b.gate.held then
      let (entries, b) := b.drain
      some (.drained entries, b)
    else none
  | .release => if b.gate.held then some (.done, b.release) else none
  | .dispose => some (.done, b.dispose)
  | .look => some (.seen b.slots.capacity b.timeout b.count b.isEmpty b.isFull b.disposed, b)

/-- What was done before, and what these acts come to after it. -/
def run? (b : LogBuffer) (past : BufferPast) : List BufferAct → Option (BufferPast × LogBuffer)
  | [] => some (past, b)
  | a :: acts =>
    match b.does? a with
    | some (r, b) => run? b ((a, r) :: past) acts
    | none => none

end LogBuffer

/-! ## What the past tells -/

namespace BufferPast

def held : BufferPast → Bool
  | [] => false
  | (.tryFlush, _) :: _ => true
  | (.release, _) :: _ => false
  | _ :: past => held past

def disposed : BufferPast → Bool
  | [] => false
  | (.dispose, _) :: _ => true
  | _ :: past => disposed past

/-- The statuses since the last drain, of the entries that came when nobody held the scope and the buffer was not
disposed of. -/
def statuses : BufferPast → List AddStatus
  | [] => []
  | (.drain, _) :: _ => []
  | (.add _, .added status _) :: past =>
    if held past || disposed past then statuses past else statuses past ++ [status]
  | _ :: past => statuses past

def accepted : BufferPast → List LogEntry
  | [] => []
  | (.add e, .added status _) :: past => if status.isAdded then accepted past ++ [e] else accepted past
  | _ :: past => accepted past

def drained : BufferPast → List LogEntry
  | [] => []
  | (_, .drained entries) :: past => drained past ++ entries
  | _ :: past => drained past

variable {past : BufferPast} {e : LogEntry} {status : AddStatus} {rejected : Option LogEntry}

theorem statuses_busy (h : past.held = true ∨ past.disposed = true) :
    statuses ((.add e, .added status rejected) :: past) = past.statuses := by
  rw [statuses, if_pos (by simpa using h)]

theorem statuses_free (hh : past.held = false) (hd : past.disposed = false) :
    statuses ((.add e, .added status rejected) :: past) = past.statuses ++ [status] := by
  rw [statuses, if_neg (by simp [hh, hd])]

end BufferPast

/-! ## The course of the statuses -/

namespace AddStatus

/-- The first statuses, this many of them, between two drains. -/
def course (capacity n : Nat) : List AddStatus :=
  ((addedFirst :: List.replicate (capacity - 2) added) ++ addedLast :: List.replicate n overCapacity).take n

def next (capacity n : Nat) : AddStatus :=
  if n = 0 then addedFirst
  else if n + 1 < capacity then added
  else if n + 1 = capacity then addedLast
  else overCapacity

theorem course_getElem? {capacity n i : Nat} (hc : 2 ≤ capacity) (hi : i < n) :
    (course capacity n)[i]? = some (next capacity i) := by
  have hlen : (addedFirst :: List.replicate (capacity - 2) added).length = capacity - 2 + 1 := by
    rw [List.length_cons, List.length_replicate]
  unfold course next
  rw [List.getElem?_take_of_lt hi]
  by_cases h₀ : i = 0
  · subst h₀
    rfl
  · rw [if_neg h₀]
    by_cases hlt : i + 1 < capacity
    · rw [if_pos hlt, List.getElem?_append_left (by rw [hlen]; omega), List.getElem?_cons, if_neg h₀,
        List.getElem?_replicate, if_pos (by omega)]
    · rw [if_neg hlt, List.getElem?_append_right (by rw [hlen]; omega), hlen]
      by_cases heq : i + 1 = capacity
      · rw [if_pos heq, show i - (capacity - 2 + 1) = 0 by omega]
        rfl
      · rw [if_neg heq, List.getElem?_cons, if_neg (by omega), List.getElem?_replicate, if_pos (by omega)]

theorem length_course (capacity n : Nat) : (course capacity n).length = n := by
  rw [course, List.length_take, List.length_append, List.length_cons, List.length_cons, List.length_replicate,
    List.length_replicate]
  omega

theorem course_succ {capacity : Nat} (hc : 2 ≤ capacity) (n : Nat) :
    course capacity (n + 1) = course capacity n ++ [next capacity n] := by
  apply List.ext_getElem?
  intro i
  by_cases hlt : i < n
  · rw [course_getElem? hc (by omega), List.getElem?_append_left (by rw [length_course]; exact hlt),
      course_getElem? hc hlt]
  · by_cases heq : i = n
    · subst heq
      rw [course_getElem? hc (by omega), List.getElem?_append_right (Nat.le_of_eq (length_course capacity i)),
        length_course, Nat.sub_self]
      rfl
    · rw [List.getElem?_eq_none (by rw [length_course]; omega),
        List.getElem?_eq_none (by rw [List.length_append, length_course, List.length_singleton]; omega)]

end AddStatus

/-! ## Adding -/

namespace LogBuffer

variable {b b' c : LogBuffer} {xs : List LogEntry} {size n : Nat} {past : BufferPast}

theorem add_disposed (hd : b.disposed = true) (e : LogEntry) : b.add e = (.disposed, some e, b) := by
  unfold add
  rw [if_pos hd]

theorem add_flushing (hd : b.disposed = false) (hg : b.gate.held = true) (e : LogEntry) :
    b.add e = (.flushing, some e, b) := by
  unfold add
  rw [if_neg (by simp [hd]), if_pos hg]

theorem add_free (hd : b.disposed = false) (hg : b.gate.held = false) (e : LogEntry) :
    b.add e = (statusOf b.slots.capacity (b.slots.add e).1, (b.slots.add e).1.rejected,
      { b with slots := (b.slots.add e).2 }) := by
  unfold add
  rw [if_neg (by simp [hd]), if_neg (by simp [hg])]

theorem statusOf_room (h : n < size) : statusOf size ⟨n + 1, none⟩ = .next size n := by
  unfold statusOf AddStatus.next
  rw [if_neg (by simp)]
  by_cases h₀ : n = 0
  · rw [if_pos (by simp [h₀]), if_pos h₀]
  · rw [if_neg (by simpa using h₀), if_neg h₀]
    by_cases hl : n + 1 = size
    · rw [if_pos hl, if_neg (by omega), if_pos hl]
    · rw [if_neg hl, if_pos (by omega)]

theorem isAdded_next (h : n < size) : (AddStatus.next size n).isAdded = true := by
  unfold AddStatus.next
  by_cases h₀ : n = 0
  · rw [if_pos h₀]
    rfl
  · rw [if_neg h₀]
    by_cases hl : n + 1 < size
    · rw [if_pos hl]
      rfl
    · rw [if_neg hl, if_pos (by omega)]
      rfl

theorem next_full (hc : 2 ≤ size) (h : size ≤ n) : AddStatus.next size n = .overCapacity := by
  unfold AddStatus.next
  rw [if_neg (by omega), if_neg (by omega), if_neg (by omega)]

theorem add_room (hd : b.disposed = false) (hg : b.gate.held = false) (h : b.slots.Holds xs)
    (hl : xs.length < b.slots.capacity) (e : LogEntry) :
    b.add e = (.next b.slots.capacity xs.length, none, { b with slots := (b.slots.add e).2 }) ∧
      (b.slots.add e).2.Holds (xs ++ [e]) := by
  obtain ⟨hr, hs⟩ := h.add hl e
  refine ⟨?_, hs⟩
  rw [add_free hd hg, hr, statusOf_room hl]

theorem add_full (hd : b.disposed = false) (hg : b.gate.held = false) (h : b.slots.Holds xs)
    (hl : xs.length = b.slots.capacity) (e : LogEntry) :
    b.add e = (.overCapacity, some e, { b with slots := (b.slots.add e).2 }) ∧ (b.slots.add e).2.Holds xs := by
  obtain ⟨hr, hs⟩ := h.add_full hl e
  refine ⟨?_, hs⟩
  rw [add_free hd hg, hr]
  rfl

/-! ## Buffers that nobody can tell apart -/

/-- Both hold the same, though one of them may have claimed a slot more. -/
structure Alike (b c : LogBuffer) : Prop where
  capacity : c.slots.capacity = b.slots.capacity
  timeout : c.timeout = b.timeout
  gate : c.gate = b.gate
  disposed : c.disposed = b.disposed
  room : 0 < b.slots.capacity
  slots : ∃ xs, b.slots.Holds xs ∧ c.slots.Holds xs

def Matches (b c : LogBuffer) (a : BufferAct) : Prop :=
  (b.does? a = none ∧ c.does? a = none) ∨
    ∃ r b' c', b.does? a = some (r, b') ∧ c.does? a = some (r, c') ∧ b'.Alike c'

theorem Alike.add (h : b.Alike c) (e : LogEntry) : b.Matches c (.add e) := by
  right
  obtain ⟨xs, hb, hc⟩ := h.slots
  by_cases hd : b.disposed = true
  · refine ⟨.added .disposed (some e), b, c, ?_, ?_, h⟩
    · rw [does?, add_disposed hd]
    · rw [does?, add_disposed (h.disposed.trans hd)]
  · rw [Bool.not_eq_true] at hd
    have hd' := h.disposed.trans hd
    by_cases hg : b.gate.held = true
    · refine ⟨.added .flushing (some e), b, c, ?_, ?_, h⟩
      · rw [does?, add_flushing hd hg]
      · rw [does?, add_flushing hd' (by rw [h.gate]; exact hg)]
    · rw [Bool.not_eq_true] at hg
      have hg' : c.gate.held = false := by rw [h.gate]; exact hg
      have hcap : (c.slots.add e).2.capacity = (b.slots.add e).2.capacity := by
        rw [SlotBuffer.add_capacity, SlotBuffer.add_capacity, h.capacity]
      have hroom : 0 < (b.slots.add e).2.capacity := by
        rw [SlotBuffer.add_capacity]
        exact h.room
      by_cases hl : xs.length < b.slots.capacity
      · obtain ⟨hab, hsb⟩ := add_room hd hg hb hl e
        obtain ⟨hac, hsc⟩ := add_room hd' hg' hc (h.capacity ▸ hl) e
        refine ⟨_, _, _, by rw [does?, hab], by rw [does?, hac, h.capacity], ?_⟩
        exact ⟨hcap, h.timeout, h.gate, h.disposed, hroom, _, hsb, hsc⟩
      · have hn : xs.length = b.slots.capacity := Nat.le_antisymm hb.fits (Nat.not_lt.mp hl)
        obtain ⟨hab, hsb⟩ := add_full hd hg hb hn e
        obtain ⟨hac, hsc⟩ := add_full hd' hg' hc (hn.trans h.capacity.symm) e
        refine ⟨_, _, _, by rw [does?, hab], by rw [does?, hac], ?_⟩
        exact ⟨hcap, h.timeout, h.gate, h.disposed, hroom, _, hsb, hsc⟩

theorem Alike.step (h : b.Alike c) (a : BufferAct) : b.Matches c a := by
  obtain ⟨xs, hb, hc⟩ := h.slots
  cases a with
  | add e => exact h.add e
  | tryFlush =>
    right
    by_cases hg : b.gate.held = true
    · refine ⟨.entered false, b, c, ?_, ?_, h⟩
      · simp [does?, tryFlush, FlushGate.enter?, hg]
      · simp [does?, tryFlush, FlushGate.enter?, h.gate, hg]
    · refine ⟨.entered true, { b with gate := ⟨true⟩ }, { c with gate := ⟨true⟩ }, ?_, ?_, ?_⟩
      · simp [does?, tryFlush, FlushGate.enter?, hg]
      · simp [does?, tryFlush, FlushGate.enter?, h.gate, hg]
      · exact ⟨h.capacity, h.timeout, rfl, h.disposed, h.room, xs, hb, hc⟩
  | drain =>
    by_cases hg : b.gate.held = true
    · right
      refine ⟨.drained xs, b.drain.2, c.drain.2, ?_, ?_, ?_⟩
      · simp [does?, hg, LogBuffer.drain, hb.drain]
      · simp [does?, h.gate, hg, LogBuffer.drain, hc.drain]
      · exact ⟨h.capacity, h.timeout, h.gate, h.disposed, h.room, [], SlotBuffer.holds_fresh _,
          SlotBuffer.holds_fresh _⟩
    · left
      simp [does?, h.gate, hg]
  | release =>
    by_cases hg : b.gate.held = true
    · right
      refine ⟨.done, b.release, c.release, ?_, ?_, ?_⟩
      · simp [does?, hg]
      · simp [does?, h.gate, hg]
      · exact ⟨h.capacity, h.timeout, rfl, h.disposed, h.room, xs, hb, hc⟩
    · left
      simp [does?, h.gate, hg]
  | dispose => exact .inr ⟨_, _, _, rfl, rfl, h.capacity, h.timeout, h.gate, rfl, h.room, xs, hb, hc⟩
  | look =>
    right
    refine ⟨_, b, c, rfl, ?_, h⟩
    have hroom : 0 < c.slots.capacity := h.capacity ▸ h.room
    simp [does?, count, isEmpty, isFull, hb.count, hc.count, hb.isEmpty h.room, hc.isEmpty hroom, hb.isFull, hc.isFull,
      h.capacity, h.timeout, h.disposed]

theorem Alike.run? (h : b.Alike c) (past : BufferPast) (acts : List BufferAct) :
    (c.run? past acts).map Prod.fst = (b.run? past acts).map Prod.fst := by
  induction acts generalizing b c past with
  | nil => rfl
  | cons a acts ih =>
    rw [LogBuffer.run?, LogBuffer.run?]
    rcases h.step a with ⟨hb, hc⟩ | ⟨r, b', c', hb, hc, h'⟩
    · rw [hb, hc]
    · rw [hb, hc]
      exact ih h' _

/-! ## Runs -/

/-- What is in the buffer after these acts, and what they tell. -/
structure Kept (size : Nat) (past : BufferPast) (b : LogBuffer) (xs : List LogEntry) : Prop where
  capacity : b.slots.capacity = size
  gate : b.gate.held = past.held
  disposed : b.disposed = past.disposed
  slots : b.slots.Holds xs
  stock : past.accepted = past.drained ++ xs
  course : past.statuses = AddStatus.course size past.statuses.length
  count : xs.length = min past.statuses.length size

theorem Kept.full_or_room (h : b.Kept size past xs) :
    (xs.length = past.statuses.length ∧ past.statuses.length < size) ∨
      (xs.length = size ∧ size ≤ past.statuses.length) := by
  have := h.count
  omega

theorem Kept.aside (h : b.Kept size past xs) {x : BufferAct × BufferReply} (hslots : b'.slots = b.slots)
    (hg : b'.gate.held = BufferPast.held (x :: past)) (hd : b'.disposed = BufferPast.disposed (x :: past))
    (ha : BufferPast.accepted (x :: past) = past.accepted) (hdr : BufferPast.drained (x :: past) = past.drained)
    (hs : BufferPast.statuses (x :: past) = past.statuses) : b'.Kept size (x :: past) xs where
  capacity := by rw [hslots]; exact h.capacity
  gate := hg
  disposed := hd
  slots := by rw [hslots]; exact h.slots
  stock := by rw [ha, hdr]; exact h.stock
  course := by rw [hs]; exact h.course
  count := by rw [hs]; exact h.count

theorem Kept.add (h : b.Kept size past xs) (hc : 2 ≤ size) {e : LogEntry} {r : BufferReply}
    (ha : b.does? (.add e) = some (r, b')) : ∃ ys, b'.Kept size ((.add e, r) :: past) ys := by
  rw [does?] at ha
  by_cases hd : b.disposed = true
  · rw [add_disposed hd] at ha
    cases ha
    exact ⟨xs, h.aside rfl h.gate h.disposed rfl rfl (BufferPast.statuses_busy (.inr (h.disposed.symm.trans hd)))⟩
  · rw [Bool.not_eq_true] at hd
    by_cases hg : b.gate.held = true
    · rw [add_flushing hd hg] at ha
      cases ha
      exact ⟨xs, h.aside rfl h.gate h.disposed rfl rfl (BufferPast.statuses_busy (.inl (h.gate.symm.trans hg)))⟩
    · -- The buffer is free to take the entry, so its status is the next one of the course.
      rw [Bool.not_eq_true] at hg
      have hs {status rejected} : BufferPast.statuses ((.add e, .added status rejected) :: past) = _ :=
        BufferPast.statuses_free (h.gate.symm.trans hg) (h.disposed.symm.trans hd)
      have hcap : (b.slots.add e).2.capacity = size := (SlotBuffer.add_capacity ..).trans h.capacity
      rcases h.full_or_room with ⟨hn, hl⟩ | ⟨hn, hl⟩
      · obtain ⟨hadd, hslots⟩ := add_room hd hg h.slots (by rw [h.capacity, hn]; exact hl) e
        rw [hadd, h.capacity, hn] at ha
        cases ha
        refine ⟨xs ++ [e], hcap, h.gate, h.disposed, hslots, ?_, ?_, ?_⟩
        · simp [BufferPast.accepted, BufferPast.drained, isAdded_next hl, h.stock]
        · rw [hs, List.length_append, List.length_singleton, AddStatus.course_succ hc, ← h.course]
        · rw [hs, List.length_append, List.length_append, List.length_singleton, List.length_singleton]
          omega
      · obtain ⟨hadd, hslots⟩ := add_full hd hg h.slots (hn.trans h.capacity.symm) e
        rw [hadd] at ha
        cases ha
        refine ⟨xs, hcap, h.gate, h.disposed, hslots, h.stock, ?_, ?_⟩
        · rw [hs, List.length_append, List.length_singleton, AddStatus.course_succ hc, ← h.course, next_full hc hl]
        · rw [hs, List.length_append, List.length_singleton]
          omega

theorem Kept.step (h : b.Kept size past xs) (hc : 2 ≤ size) {a : BufferAct} {r : BufferReply}
    (ha : b.does? a = some (r, b')) : ∃ ys, b'.Kept size ((a, r) :: past) ys := by
  cases a with
  | add e => exact h.add hc ha
  | tryFlush =>
    rw [does?, tryFlush, FlushGate.enter?] at ha
    by_cases hg : b.gate.held = true
    · rw [if_pos hg] at ha
      cases ha
      exact ⟨xs, h.aside rfl hg h.disposed rfl rfl rfl⟩
    · rw [if_neg hg] at ha
      cases ha
      exact ⟨xs, h.aside rfl rfl h.disposed rfl rfl rfl⟩
  | drain =>
    rw [does?] at ha
    by_cases hg : b.gate.held = true
    · rw [if_pos hg, LogBuffer.drain, h.slots.drain] at ha
      cases ha
      refine ⟨[], h.capacity, h.gate, h.disposed, SlotBuffer.holds_fresh _, ?_, rfl, by simp [BufferPast.statuses]⟩
      rw [List.append_nil]
      exact h.stock
    · rw [if_neg hg] at ha
      cases ha
  | release =>
    rw [does?] at ha
    by_cases hg : b.gate.held = true
    · rw [if_pos hg] at ha
      cases ha
      exact ⟨xs, h.aside rfl rfl h.disposed rfl rfl rfl⟩
    · rw [if_neg hg] at ha
      cases ha
  | dispose =>
    cases ha
    exact ⟨xs, h.aside rfl h.gate rfl rfl rfl rfl⟩
  | look =>
    cases ha
    exact ⟨xs, h.aside rfl h.gate h.disposed rfl rfl rfl⟩

theorem Kept.run {acts : List BufferAct} {past' : BufferPast} (h : b.Kept size past xs) (hc : 2 ≤ size)
    (hr : b.run? past acts = some (past', b')) : ∃ ys, b'.Kept size past' ys := by
  induction acts generalizing b past xs with
  | nil =>
    cases hr
    exact ⟨xs, h⟩
  | cons a acts ih =>
    rw [run?] at hr
    cases ha : b.does? a with
    | none =>
      rw [ha] at hr
      cases hr
    | some x =>
      obtain ⟨r, b₁⟩ := x
      rw [ha] at hr
      obtain ⟨ys, hy⟩ := h.step hc ha
      exact ih hy hr

theorem make_kept {capacity : UInt64} {timeout : Duration} (h : make capacity timeout = .ok b) :
    2 ≤ capacity.toNat ∧ b.Kept capacity.toNat [] [] := by
  unfold make SlotBuffer.make at h
  by_cases ht : timeout = .zero
  · rw [if_pos ht] at h
    cases h
  · rw [if_neg ht] at h
    by_cases hc : capacity < 2
    · rw [if_pos hc] at h
      cases h
    · rw [if_neg hc] at h
      cases h
      refine ⟨?_, rfl, rfl, rfl, SlotBuffer.holds_fresh _, rfl, rfl, by simp [BufferPast.statuses]⟩
      rw [UInt64.lt_iff_toNat_lt] at hc
      exact Nat.not_lt.mp hc

/-! ## The protocol -/

/-- What the past of a buffer says about it and about what it replies next. -/
structure Protocol (size : Nat) (past : BufferPast) (b : LogBuffer) : Prop where
  course : past.statuses = AddStatus.course size past.statuses.length
  stock : past.accepted = past.drained ++ b.slots.toList
  scope : b.tryFlush.isSome = !past.held
  disposed : past.disposed = true → ∀ e, b.add e = (.disposed, some e, b)
  flushing : past.disposed = false → past.held = true → ∀ e, b.add e = (.flushing, some e, b)
  free : past.disposed = false → past.held = false → ∀ e, (b.add e).1 = .next size past.statuses.length
  taken : ∀ e, (b.add e).1.isAdded = true → (b.add e).2.1 = none
  refused : ∀ e, (b.add e).1.isAdded = false → (b.add e).2.1 = some e ∧
    (b.add e).2.2.slots.toList = b.slots.toList ∧
    ∀ acts, ((b.add e).2.2.run? past acts).map Prod.fst = (b.run? past acts).map Prod.fst

/-- An entry is taken, or it is handed back by a buffer that nobody can tell from the one that it was given to. -/
theorem Kept.taken_or_refused (h : b.Kept size past xs) (hc : 2 ≤ size) (e : LogEntry) :
    ((b.add e).1.isAdded = true ∧ (b.add e).2.1 = none) ∨
      ((b.add e).1.isAdded = false ∧ (b.add e).2.1 = some e ∧ (b.add e).2.2.slots.toList = b.slots.toList ∧
        b.Alike (b.add e).2.2) := by
  have hroom : 0 < b.slots.capacity := by
    rw [h.capacity]
    omega
  by_cases hd : b.disposed = true
  · right
    rw [add_disposed hd]
    exact ⟨rfl, rfl, rfl, rfl, rfl, rfl, rfl, hroom, xs, h.slots, h.slots⟩
  · rw [Bool.not_eq_true] at hd
    by_cases hg : b.gate.held = true
    · right
      rw [add_flushing hd hg]
      exact ⟨rfl, rfl, rfl, rfl, rfl, rfl, rfl, hroom, xs, h.slots, h.slots⟩
    · rw [Bool.not_eq_true] at hg
      rcases h.full_or_room with ⟨hn, hl⟩ | ⟨hn, hl⟩
      · left
        have hlt : xs.length < b.slots.capacity := by
          rw [h.capacity, hn]
          exact hl
        rw [(add_room hd hg h.slots hlt e).1]
        exact ⟨isAdded_next hlt, rfl⟩
      · right
        obtain ⟨hadd, hslots⟩ := add_full hd hg h.slots (hn.trans h.capacity.symm) e
        rw [hadd]
        refine ⟨rfl, rfl, ?_, SlotBuffer.add_capacity _ _, rfl, rfl, rfl, hroom, xs, h.slots, hslots⟩
        rw [hslots.toList, h.slots.toList]

theorem Kept.next (h : b.Kept size past xs) (hc : 2 ≤ size) (hd : b.disposed = false) (hg : b.gate.held = false)
    (e : LogEntry) : (b.add e).1 = .next size past.statuses.length := by
  rcases h.full_or_room with ⟨hn, hl⟩ | ⟨hn, hl⟩
  · obtain ⟨hadd, -⟩ := add_room hd hg h.slots (by rw [h.capacity, hn]; exact hl) e
    rw [hadd, h.capacity, hn]
  · obtain ⟨hadd, -⟩ := add_full hd hg h.slots (hn.trans h.capacity.symm) e
    rw [hadd, next_full hc hl]

theorem Kept.protocol (h : b.Kept size past xs) (hc : 2 ≤ size) : b.Protocol size past where
  course := h.course
  stock := by rw [h.slots.toList]; exact h.stock
  scope := by
    rw [← h.gate, tryFlush, Option.isSome_map, FlushGate.enter?]
    cases b.gate.held <;> rfl
  disposed hp e := add_disposed (h.disposed.trans hp) e
  flushing hp hh e := add_flushing (h.disposed.trans hp) (h.gate.trans hh) e
  free hp hh e := h.next hc (h.disposed.trans hp) (h.gate.trans hh) e
  taken e ha := by
    rcases h.taken_or_refused hc e with ⟨-, ht⟩ | ⟨hn, -⟩
    · exact ht
    · rw [ha] at hn
      cases hn
  refused e ha := by
    rcases h.taken_or_refused hc e with ⟨ht, -⟩ | ⟨-, hr, hs, hal⟩
    · rw [ha] at ht
      cases ht
    · exact ⟨hr, hs, hal.run? past⟩

/-- Whatever is done to a buffer, from one drain to the next the entries that come when nobody holds the scope and the
buffer is not disposed of have the statuses of the course; all others are refused, and what is refused is handed back
and leaves no trace. What was taken, in its order, is what the drains gave out and then what is there. -/
theorem run_protocol {capacity : UInt64} {timeout : Duration} {first : LogBuffer} {acts : List BufferAct}
    (hfirst : make capacity timeout = .ok first) (hr : first.run? [] acts = some (past, b)) :
    b.Protocol capacity.toNat past := by
  obtain ⟨hc, hk⟩ := make_kept hfirst
  obtain ⟨xs, h⟩ := hk.run hc hr
  exact h.protocol hc

/-- The scope is given up once without a drain and once with one, and an entry comes when there is no room for it. -/
def scopeActs : List BufferAct :=
  let add body := BufferAct.add { timestamp := ⟨0⟩, level := .info, body }
  [add "a", add "b", .tryFlush, add "c", .tryFlush, .release, add "d", add "e", .tryFlush, .drain, .release, add "f",
    .dispose, add "g"]

theorem run_protocol_scopes :
    ∃ first past b, make 3 (.ofMillis 100) = .ok first ∧ first.run? [] scopeActs = some (past, b) ∧
      past.reverse.filterMap (fun x => match x.2 with | .added status _ => some status | _ => none) =
        [.addedFirst, .added, .flushing, .addedLast, .overCapacity, .addedFirst, .disposed] ∧
      past.drained.map (·.body) = ["a", "b", "d"] ∧ b.Protocol 3 past := by
  have hfirst : make 3 (.ofMillis 100) = .ok ⟨.fresh 3, .ofMillis 100, {}, false⟩ := by
    unfold make SlotBuffer.make
    rw [if_neg (by decide), if_neg (by decide)]
    rfl
  rcases hr : run? ⟨.fresh 3, .ofMillis 100, {}, false⟩ [] scopeActs with _ | ⟨past, b⟩
  · have hsome : (run? ⟨.fresh 3, .ofMillis 100, {}, false⟩ [] scopeActs).isSome = true := by decide +kernel
    rw [hr] at hsome
    cases hsome
  · have hseen : (run? ⟨.fresh 3, .ofMillis 100, {}, false⟩ [] scopeActs).map (fun x =>
        (x.1.reverse.filterMap fun y => match y.2 with | .added status _ => some status | _ => none,
          x.1.drained.map (·.body))) =
        some ([.addedFirst, .added, .flushing, .addedLast, .overCapacity, .addedFirst, .disposed],
          ["a", "b", "d"]) := by decide +kernel
    rw [hr, Option.map_some, Option.some.injEq, Prod.mk.injEq] at hseen
    exact ⟨_, past, b, hfirst, hr, hseen.1, hseen.2, run_protocol hfirst hr⟩

end LogBuffer

end Courier

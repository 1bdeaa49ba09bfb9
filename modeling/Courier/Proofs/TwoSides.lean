import Courier.Proofs.Batching

/-!
# Two sides, one tray

The two buffers of a log batcher take turns: only the active one holds anything. So a log batcher is to its users the
same tray as a batcher with one buffer of that size.
-/

namespace Courier

open Tray (batchOf)

namespace LogBuffer

variable {x : LogBuffer} {size : Nat} {disposed : Bool} {items : List LogEntry}

def cleared (x : LogBuffer) : LogBuffer := { x with slots := .fresh x.slots.capacity }

/-- A buffer that nobody is flushing holds these entries. -/
structure Holds (size : Nat) (disposed : Bool) (items : List LogEntry) (x : LogBuffer) : Prop where
  capacity : x.slots.capacity = size
  gate : x.gate = {}
  disposed : x.disposed = disposed
  slots : x.slots.Holds items

theorem Holds.cleared (h : x.Holds size disposed items) : x.cleared.Holds size disposed [] :=
  ⟨h.capacity, h.gate, h.disposed, SlotBuffer.holds_fresh _⟩

theorem Holds.isEmpty (h : x.Holds size disposed items) (hn : 0 < size) : x.isEmpty = items.isEmpty := by
  apply h.slots.isEmpty
  rw [h.capacity]
  exact hn

theorem Holds.isFull (h : x.Holds size disposed items) : x.isFull = decide (items.length = size) := by
  unfold LogBuffer.isFull
  rw [h.slots.isFull, h.capacity]

theorem Holds.tryFlush (h : x.Holds size disposed items) :
    ∃ held drained, x.tryFlush = some held ∧ held.drain = (items, drained) ∧ drained.release = x.cleared := by
  obtain ⟨slots, timeout, gate, d⟩ := x
  have hg : gate = {} := h.gate
  subst hg
  refine ⟨⟨slots, timeout, ⟨true⟩, d⟩, ⟨.fresh slots.capacity, timeout, ⟨true⟩, d⟩, rfl, ?_, rfl⟩
  have hs : slots.drain = (items, .fresh slots.capacity) := h.slots.drain
  unfold LogBuffer.drain
  rw [hs]

theorem Holds.add (h : x.Holds size false items) (hl : items.length < size) (e : LogEntry) :
    ∃ x', x.add e = (statusOf size ⟨items.length + 1, none⟩, none, x') ∧ x'.Holds size false (items ++ [e]) ∧
      x'.timeout = x.timeout := by
  have hc := h.capacity
  have hd := h.disposed
  have hg := h.gate
  obtain ⟨hr, hs⟩ := h.slots.add (hc ▸ hl) e
  refine ⟨{ x with slots := (x.slots.add e).2 }, ?_, ?_, rfl⟩
  · unfold LogBuffer.add
    simp [hd, hg, hr, hc]
  · exact ⟨(SlotBuffer.add_capacity x.slots e).trans hc, hg, hd, hs⟩

end LogBuffer

namespace LogBatcher

variable {b : LogBatcher} {size : Nat} {t : Tray LogEntry} {side : Side}

/-! ## Acts -/

def settled (s : Step) : List Emission × LogBatcher × BatchReply := s.settle resume Processor.turns

def onBoth (f : LogBatcher → Side → Step) (b : LogBatcher) : List Emission × LogBatcher × BatchReply :=
  let (out, b, _) := settled (f b .left)
  let (out', b, reply) := settled (f b .right)
  (out ++ out', b, reply)

/-- The alarm of a side goes off if it is armed. -/
def ring (b : LogBatcher) (side : Side) : Step :=
  if (b.alarm side).isArmed then (b.disarm side).timeout side else .reply b .done

def perform (b : LogBatcher) : BatchAct LogEntry → List Emission × LogBatcher × BatchReply
  | .add e => settled (b.enqueue e)
  | .flush => settled b.flush
  | .ring => onBoth ring b
  | .late => onBoth timeout b
  | .dispose => settled b.dispose

/-! ## Sides -/

theorem buffer_setBuffer (b : LogBatcher) (side s : Side) (x : LogBuffer) :
    (b.setBuffer side x).buffer s = if s = side then x else b.buffer s := by
  cases side <;> cases s <;> rfl

theorem setBuffer_setBuffer (b : LogBatcher) (side : Side) (x y : LogBuffer) :
    (b.setBuffer side x).setBuffer side y = b.setBuffer side y := by
  cases side <;> rfl

@[simp] theorem buffer_setBuffer_self (b : LogBatcher) (side : Side) (x : LogBuffer) :
    (b.setBuffer side x).buffer side = x := by
  cases side <;> rfl

@[simp] theorem active_setBuffer (b : LogBatcher) (side : Side) (x : LogBuffer) :
    (b.setBuffer side x).active = b.active := by
  cases side <;> rfl

@[simp] theorem disposed_setBuffer (b : LogBatcher) (side : Side) (x : LogBuffer) :
    (b.setBuffer side x).disposed = b.disposed := by
  cases side <;> rfl

@[simp] theorem alarm_setBuffer (b : LogBatcher) (side s : Side) (x : LogBuffer) :
    (b.setBuffer side x).alarm s = b.alarm s := by
  cases side <;> cases s <;> rfl

@[simp] theorem buffer_setAlarm (b : LogBatcher) (side s : Side) (x : Alarm Unit) :
    (b.setAlarm side x).buffer s = b.buffer s := by
  cases side <;> cases s <;> rfl

@[simp] theorem active_setAlarm (b : LogBatcher) (side : Side) (x : Alarm Unit) :
    (b.setAlarm side x).active = b.active := by
  cases side <;> rfl

@[simp] theorem disposed_setAlarm (b : LogBatcher) (side : Side) (x : Alarm Unit) :
    (b.setAlarm side x).disposed = b.disposed := by
  cases side <;> rfl

theorem alarm_setAlarm (b : LogBatcher) (side s : Side) (x : Alarm Unit) :
    (b.setAlarm side x).alarm s = if s = side then x else b.alarm s := by
  cases side <;> cases s <;> rfl

@[simp] theorem buffer_turnFrom (b : LogBatcher) (side s : Side) : (b.turnFrom side).buffer s = b.buffer s := by
  unfold turnFrom
  split <;> cases s <;> rfl

@[simp] theorem disposed_turnFrom (b : LogBatcher) (side : Side) : (b.turnFrom side).disposed = b.disposed := by
  unfold turnFrom
  split <;> rfl

/-! ## Turns -/

/-- With at most so many emissions, the work comes to this end. -/
def Ends (s : Step) (turns : Nat) (out : List Emission) (b : LogBatcher) (reply : BatchReply) : Prop :=
  ∀ fuel, turns ≤ fuel → s.settle resume fuel = (out, b, reply)

theorem Ends.settled {s : Step} {turns : Nat} {out : List Emission} {reply : BatchReply}
    (h : Ends s turns out b reply) (ht : turns ≤ Processor.turns) : settled s = (out, b, reply) := h _ ht

theorem Ends.reply (b : LogBatcher) (reply : BatchReply) (turns : Nat) : Ends (.reply b reply) turns [] b reply := by
  intro fuel _
  unfold Turn.settle
  rfl

theorem Ends.emit {rest : Rest} {turns : Nat} {out : List Emission} {b' : LogBatcher} {reply : BatchReply}
    (h : Ends (b.resume rest) turns out b' reply) (what : Emission) :
    Ends (.emit what b rest) (turns + 1) (what :: out) b' reply := by
  intro fuel hf
  obtain ⟨fuel, rfl⟩ : ∃ k, fuel = k + 1 := ⟨fuel - 1, by omega⟩
  unfold Turn.settle
  rw [h fuel (by omega)]

theorem Ends.mono {s : Step} {n m : Nat} {out : List Emission} {reply : BatchReply} (h : Ends s n out b reply)
    (hm : n ≤ m) : Ends s m out b reply := by
  intro fuel hf
  exact h fuel (Nat.le_trans hm hf)

def cleared (b : LogBatcher) (side : Side) : LogBatcher := b.setBuffer side (b.buffer side).cleared

section
variable {disposed : Bool} {items : List LogEntry} {b' : LogBatcher} {turns n : Nat} {out : List Emission}
  {reply : BatchReply} {purpose : Purpose}

theorem captureOr_ends (hx : (b.buffer side).Holds size disposed items) (hn : 0 < size) {stopped : LogBatcher → Step}
    (hstop : stopped (b.cleared side) = (b.cleared side).finish side purpose n)
    (hfin : Ends ((b.cleared side).finish side purpose (n + items.length)) turns out b' reply) :
    Ends (b.captureOr side purpose n stopped) (turns + 1) ((batchOf items).map emission ++ out) b' reply := by
  obtain ⟨held, drained, hheld, hdrain, hrelease⟩ := hx.tryFlush
  have hc : b.setBuffer side drained.release = b.cleared side := by rw [hrelease, cleared]
  unfold captureOr
  simp only [hheld, hdrain]
  by_cases hi : items = []
  · subst hi
    rw [List.isEmpty_nil, if_pos rfl, hc, hstop]
    exact hfin.mono (Nat.le_succ turns)
  · -- Nobody came in between, so the side that was full is empty when its batch is out.
    have hfull : ((b.cleared side).buffer side).isFull = false := by
      rw [cleared, buffer_setBuffer_self, hx.cleared.isFull]
      exact decide_eq_false (by simp only [List.length_nil]; omega)
    rw [List.isEmpty_eq_false_iff.mpr hi, if_neg Bool.false_ne_true, batchOf, if_neg hi]
    apply Ends.emit
    simp only [resume, buffer_setBuffer_self, setBuffer_setBuffer, hc]
    rw [hfull, if_neg Bool.false_ne_true]
    exact hfin

def shut (b : LogBatcher) (side : Side) : LogBatcher :=
  (b.disarm side).setBuffer side (b.buffer side).dispose.cleared

theorem closeOr_ends (hx : (b.buffer side).Holds size disposed items) {closed : LogBatcher → Step}
    (hnext : ∀ b, resume b (.close side) = closed (b.setBuffer side (b.buffer side).release))
    (hfin : Ends (closed (b.shut side)) turns out b' reply) :
    Ends (b.closeOr side closed) (turns + 1) ((batchOf items).map emission ++ out) b' reply := by
  have hd : (b.buffer side).dispose.Holds size true items := ⟨hx.capacity, hx.gate, rfl, hx.slots⟩
  obtain ⟨held, drained, hheld, hdrain, hrelease⟩ := hd.tryFlush
  have hc : (b.disarm side).setBuffer side drained.release = b.shut side := by rw [hrelease, shut]
  unfold closeOr
  simp only [disarm, buffer_setAlarm, buffer_setBuffer_self, hheld, hdrain, setBuffer_setBuffer]
  by_cases hi : items = []
  · subst hi
    rw [List.isEmpty_nil, if_pos rfl]
    simp only [disarm] at hc
    rw [hc]
    exact hfin.mono (Nat.le_succ turns)
  · rw [List.isEmpty_eq_false_iff.mpr hi, if_neg Bool.false_ne_true, batchOf, if_neg hi]
    apply Ends.emit
    simp only [disarm] at hc
    rw [hnext, buffer_setBuffer_self, setBuffer_setBuffer, hc]
    exact hfin

theorem buffer_cleared (b : LogBatcher) (side s : Side) :
    (b.cleared side).buffer s = if s = side then (b.buffer s).cleared else b.buffer s := by
  unfold cleared
  rw [buffer_setBuffer]
  by_cases h : s = side
  · rw [if_pos h, if_pos h, h]
  · rw [if_neg h, if_neg h]

variable {xs ys : List LogEntry} (hx : b.left.Holds size disposed xs) (hy : b.right.Holds size disposed ys)
include hx hy

theorem flush_ends (hn : 0 < size) :
    Ends b.flush 2 ((batchOf xs ++ batchOf ys).map emission) ((b.cleared .left).cleared .right)
      (.count (xs.length + ys.length)) := by
  have hr : ((b.cleared .left).buffer .right).Holds size disposed ys := hy
  have hend := Ends.reply ((b.cleared .left).cleared .right) (.count (xs.length + ys.length)) 0
  have hright : Ends ((b.cleared .left).finish .left .firstSide (0 + xs.length)) 1 ((batchOf ys).map emission)
      ((b.cleared .left).cleared .right) (.count (xs.length + ys.length)) := by
    simp only [finish, Side.other]
    rw [Nat.zero_add, ← List.append_nil ((batchOf ys).map emission)]
    apply captureOr_ends hr hn
    · rfl
    · rw [Nat.zero_add]
      exact hend
  have hl : (b.buffer .left).Holds size disposed xs := hx
  rw [List.map_append]
  apply captureOr_ends hl hn
  · rfl
  · exact hright

theorem dispose_ends (hd : b.disposed = false) :
    Ends b.dispose 2 ((batchOf xs ++ batchOf ys).map emission)
      ((({ b with disposed := true } : LogBatcher).shut .left).shut .right) .done := by
  have hl : (({ b with disposed := true } : LogBatcher).buffer .left).Holds size disposed xs := hx
  have hr : ((({ b with disposed := true } : LogBatcher).shut .left).buffer .right).Holds size disposed ys := hy
  have hright : Ends (({ b with disposed := true } : LogBatcher).shut .left).closeRight 1 ((batchOf ys).map emission)
      ((({ b with disposed := true } : LogBatcher).shut .left).shut .right) .done := by
    rw [← List.append_nil ((batchOf ys).map emission)]
    apply closeOr_ends hr
    · intro _
      rfl
    · exact Ends.reply _ _ 0
  unfold dispose
  rw [if_neg (by simp [hd]), List.map_append]
  apply closeOr_ends hl
  · intro _
    rfl
  · exact hright

end

/-! ## The likeness -/

/-- What a side holds: all that is on the tray if it is active, and nothing otherwise. -/
def share (t : Tray LogEntry) (active side : Side) : List LogEntry := if side = active then t.waiting else []

structure Shows (size : Nat) (b : LogBatcher) (t : Tray LogEntry) : Prop where
  two : 2 ≤ size
  sound : t.Sound size
  disposed : b.disposed = t.disposed
  sides : ∀ side, (b.buffer side).Holds size t.disposed (share t b.active side)

/-- The batcher is to its users what the tray is: the alarm of the active side is armed as long as something waits. -/
structure Like (size : Nat) (b : LogBatcher) (t : Tray LogEntry) : Prop extends Shows size b t where
  armed : t.waiting ≠ [] → (b.alarm b.active).isArmed = true

theorem like_of_empty {disposed : Bool} (hn : 2 ≤ size) (hd : b.disposed = disposed)
    (hs : ∀ side, (b.buffer side).Holds size disposed []) : b.Like size ⟨[], disposed⟩ := by
  refine ⟨⟨hn, ⟨?_, fun _ => rfl⟩, hd, ?_⟩, ?_⟩
  · simp only [List.length_nil]
    omega
  · intro side
    unfold share
    rw [ite_self]
    exact hs side
  · intro hne
    exact absurd rfl hne

theorem Shows.active (h : b.Shows size t) : (b.buffer b.active).Holds size t.disposed t.waiting := by
  have hs := h.sides b.active
  unfold share at hs
  rwa [if_pos rfl] at hs

theorem Shows.idle (h : b.Shows size t) (hs : side ≠ b.active) : (b.buffer side).Holds size t.disposed [] := by
  have hx := h.sides side
  unfold share at hx
  rwa [if_neg hs] at hx

theorem Shows.cleared (h : b.Shows size t) {b' : LogBatcher} {items : List LogEntry}
    (hd : b'.disposed = b.disposed) (hx : (b'.buffer b.active).Holds size t.disposed items)
    (hb : ∀ side, side ≠ b.active → b'.buffer side = b.buffer side) : (b'.cleared b.active).Like size t.emptied := by
  apply like_of_empty h.two
  · unfold LogBatcher.cleared
    rw [disposed_setBuffer, hd, h.disposed]
  · intro side
    rw [buffer_cleared]
    by_cases hs : side = b.active
    · rw [if_pos hs, hs]
      exact hx.cleared
    · rw [if_neg hs, hb side hs]
      exact h.idle hs

theorem Shows.pending (h : b.Shows size t) : b.pending = t.waiting.length := by
  have hl : b.left.count = (share t b.active .left).length := (h.sides .left).slots.count
  have hr : b.right.count = (share t b.active .right).length := (h.sides .right).slots.count
  unfold LogBatcher.pending
  rw [hl, hr]
  cases b.active <;> simp [share]

theorem batchOf_share (t : Tray LogEntry) (active : Side) :
    batchOf (share t active .left) ++ batchOf (share t active .right) = batchOf t.waiting := by
  cases active <;> simp [share]

/-! ## Each act -/

theorem Like.flush (h : b.Like size t) :
    ∃ b', settled b.flush = ((batchOf t.waiting).map emission, b', .count t.waiting.length) ∧
      b'.Like size t.emptied := by
  have hn := h.two
  have hcount : (share t b.active .left).length + (share t b.active .right).length = t.waiting.length := by
    cases b.active <;> simp [share]
  have hend := flush_ends (h.sides .left) (h.sides .right) (by omega)
  rw [batchOf_share, hcount] at hend
  refine ⟨_, hend.settled (by decide), ?_⟩
  apply like_of_empty (b := (b.cleared .left).cleared .right) hn h.disposed
  intro side
  cases side with
  | left => exact (h.sides .left).cleared
  | right => exact (h.sides .right).cleared

theorem Like.dispose (h : b.Like size t) :
    ∃ b', settled b.dispose = ((batchOf t.waiting).map emission, b', .done) ∧ b'.Like size ⟨[], true⟩ := by
  by_cases hd : t.disposed = true
  · have hw := h.sound.idle hd
    refine ⟨b, ?_, ?_⟩
    · have hend : Ends b.dispose 0 [] b .done := by
        unfold LogBatcher.dispose
        rw [if_pos (h.disposed.trans hd)]
        exact Ends.reply b .done 0
      rw [hw]
      exact hend.settled (by decide)
    · obtain ⟨waiting, disposed⟩ := t
      subst hw hd
      exact h
  · have hf : b.disposed = false := by
      rw [h.disposed]
      simpa using hd
    have hend := dispose_ends (h.sides .left) (h.sides .right) hf
    rw [batchOf_share] at hend
    refine ⟨_, hend.settled (by decide), ?_⟩
    apply like_of_empty h.two rfl
    have hclosed {items : List LogEntry} {x : LogBuffer} (hx : x.Holds size t.disposed items) :
        x.dispose.cleared.Holds size true [] := ⟨hx.capacity, hx.gate, rfl, SlotBuffer.holds_fresh _⟩
    intro side
    cases side with
    | left => exact hclosed (h.sides .left)
    | right => exact hclosed (h.sides .right)

theorem Shows.timeout_empty (h : b.Shows size t) (hi : share t b.active side = []) :
    settled (b.timeout side) = ([], b, .done) := by
  have hn := h.two
  have hempty := (h.sides side).isEmpty (by omega)
  unfold LogBatcher.timeout
  rw [hempty, hi, List.isEmpty_nil, if_pos rfl]
  exact (Ends.reply b .done 0).settled (by decide)

theorem Shows.timeout_active (h : b.Shows size t) (hw : t.waiting ≠ []) :
    settled (b.timeout b.active) =
      ((batchOf t.waiting).map emission, (b.turnFrom b.active).cleared b.active, .done) := by
  have hn := h.two
  have hempty := h.active.isEmpty (by omega)
  have hx : ((b.turnFrom b.active).buffer b.active).Holds size t.disposed t.waiting := by
    rw [buffer_turnFrom]
    exact h.active
  have hend : Ends ((b.turnFrom b.active).captureFrom b.active .timeout 0) 1 ((batchOf t.waiting).map emission)
      ((b.turnFrom b.active).cleared b.active) .done := by
    rw [← List.append_nil ((batchOf _).map emission)]
    apply captureOr_ends hx (by omega)
    · rfl
    · exact Ends.reply _ _ 0
  unfold LogBatcher.timeout
  rw [hempty, List.isEmpty_eq_false_iff.mpr hw, if_neg Bool.false_ne_true]
  exact hend.settled (by decide)

/-- When the alarm of the active side goes off, all that waits is sent; that of the other side finds nothing. -/
theorem Shows.timeout (h : b.Shows size t) (side : Side) :
    ∃ b', settled (b.timeout side) = ((batchOf (share t b.active side)).map emission, b', .done) ∧
      if side = b.active then b'.Like size t.emptied else b' = b := by
  by_cases hs : side = b.active
  · subst hs
    have hshare : share t b.active b.active = t.waiting := if_pos rfl
    rw [hshare]
    by_cases hw : t.waiting = []
    · rw [h.timeout_empty (hshare.trans hw), hw, Tray.emptied_of_waiting hw]
      refine ⟨b, rfl, ?_⟩
      rw [if_pos rfl]
      exact ⟨h, fun hne => absurd hw hne⟩
    · refine ⟨_, h.timeout_active hw, ?_⟩
      rw [if_pos rfl]
      apply h.cleared
      · exact disposed_turnFrom b b.active
      · rw [buffer_turnFrom]
        exact h.active
      · intro side _
        exact buffer_turnFrom b b.active side
  · have hi : share t b.active side = [] := by rw [share, if_neg hs]
    rw [hi, h.timeout_empty hi]
    refine ⟨b, rfl, ?_⟩
    rw [if_neg hs]

theorem Like.late (h : b.Like size t) (side : Side) :
    ∃ b', settled (b.timeout side) = ((batchOf (share t b.active side)).map emission, b', .done) ∧
      if side = b.active then b'.Like size t.emptied else b'.Like size t ∧ b'.active = b.active := by
  obtain ⟨b', hend, hb⟩ := h.timeout side
  refine ⟨b', hend, ?_⟩
  by_cases hs : side = b.active
  · rw [if_pos hs] at hb ⊢
    exact hb
  · rw [if_neg hs] at hb ⊢
    subst hb
    exact ⟨h, rfl⟩

theorem Shows.disarm (h : b.Shows size t) (side : Side) : (b.disarm side).Shows size t := by
  unfold LogBatcher.disarm
  refine ⟨h.two, h.sound, ?_, ?_⟩
  · rw [disposed_setAlarm, h.disposed]
  · intro s
    rw [buffer_setAlarm, active_setAlarm]
    exact h.sides s

theorem Like.ring (h : b.Like size t) (side : Side) :
    ∃ b', settled (b.ring side) = ((batchOf (share t b.active side)).map emission, b', .done) ∧
      if side = b.active then b'.Like size t.emptied else b'.Like size t ∧ b'.active = b.active := by
  have hactive : (b.disarm side).active = b.active := active_setAlarm b side _
  unfold LogBatcher.ring
  by_cases ha : (b.alarm side).isArmed = true
  · obtain ⟨b', hend, hb⟩ := (h.disarm side).timeout side
    rw [hactive] at hend hb
    rw [if_pos ha]
    refine ⟨b', hend, ?_⟩
    by_cases hs : side = b.active
    · rw [if_pos hs] at hb ⊢
      exact hb
    · rw [if_neg hs] at hb ⊢
      subst hb
      refine ⟨⟨h.disarm side, ?_⟩, hactive⟩
      intro hne
      unfold LogBatcher.disarm
      rw [active_setAlarm, alarm_setAlarm, if_neg (Ne.symm hs)]
      exact h.armed hne
  · -- What waits has its alarm armed, so on the active side nothing does.
    have hend := (Ends.reply b .done 0).settled (by decide)
    rw [if_neg ha]
    by_cases hs : side = b.active
    · have hw : t.waiting = [] := by
        by_cases hw : t.waiting = []
        · exact hw
        · exact absurd (hs ▸ h.armed hw) ha
      refine ⟨b, ?_, ?_⟩
      · rw [hend, share, if_pos hs, hw]
        rfl
      · rw [if_pos hs, Tray.emptied_of_waiting hw]
        exact h
    · refine ⟨b, ?_, ?_⟩
      · rw [hend, share, if_neg hs]
        rfl
      · rw [if_neg hs]
        exact ⟨h, rfl⟩

theorem Like.onBoth {f : LogBatcher → Side → Step}
    (hf : ∀ {b t}, b.Like size t → ∀ side,
      ∃ b', settled (f b side) = ((batchOf (share t b.active side)).map emission, b', .done) ∧
        if side = b.active then b'.Like size t.emptied else b'.Like size t ∧ b'.active = b.active)
    (h : b.Like size t) :
    ∃ b', onBoth f b = ((batchOf t.waiting).map emission, b', .done) ∧ b'.Like size t.emptied := by
  obtain ⟨b₁, hend₁, hb₁⟩ := hf h .left
  unfold LogBatcher.onBoth
  rw [hend₁]
  -- After the left side has sent what waits, the right one may be active, but nothing waits on it.
  by_cases ha : Side.left = b.active
  · rw [if_pos ha] at hb₁
    obtain ⟨b₂, hend₂, hb₂⟩ := hf hb₁ .right
    have hnone : share t.emptied b₁.active .right = [] := ite_self _
    refine ⟨b₂, ?_, ?_⟩
    · simp only [hend₂, hnone]
      rw [share, if_pos ha]
      simp
    · by_cases hr : Side.right = b₁.active
      · rw [if_pos hr] at hb₂
        exact hb₂
      · rw [if_neg hr] at hb₂
        exact hb₂.1
  · have hr : Side.right = b.active := by
      cases hb : b.active with
      | left => exact absurd hb.symm ha
      | right => rfl
    rw [if_neg ha] at hb₁
    obtain ⟨hlike, hactive⟩ := hb₁
    obtain ⟨b₂, hend₂, hb₂⟩ := hf hlike .right
    rw [hactive, if_pos hr] at hb₂
    refine ⟨b₂, ?_, hb₂⟩
    simp only [hend₂]
    rw [hactive, share, share, if_neg ha, if_pos hr]
    rfl

theorem Shows.stored (h : b.Shows size t) (ht : t.disposed = false) {b' : LogBatcher} {items : List LogEntry}
    (hi : items.length < size) (hd : b'.disposed = b.disposed) (ha : b'.active = b.active)
    (hx : (b'.buffer b.active).Holds size false items)
    (hb : ∀ side, side ≠ b.active → b'.buffer side = b.buffer side) (harm : (b'.alarm b.active).isArmed = true) :
    b'.Like size { waiting := items } := by
  refine ⟨⟨h.two, ⟨hi, nofun⟩, hd.trans (h.disposed.trans ht), ?_⟩, ?_⟩
  · intro side
    rw [ha, share]
    by_cases hs : side = b.active
    · rw [if_pos hs, hs]
      exact hx
    · rw [if_neg hs, hb side hs]
      exact ht ▸ h.idle hs
  · intro _
    rw [ha]
    exact harm

theorem lastSlot_ends {x : LogBuffer} {items : List LogEntry} {disposed : Bool} (hn : 0 < size)
    (hx : x.Holds size disposed items) (hb : b.buffer side = x) :
    Ends (b.captureFrom side .lastSlot 0) 1 ((batchOf items).map emission) (b.cleared side) (.taken true) := by
  have hempty : ((b.cleared side).buffer side).isEmpty = true := by
    rw [cleared, buffer_setBuffer_self, hb, hx.cleared.isEmpty hn]
    rfl
  have hfin (n : Nat) : (b.cleared side).finish side .lastSlot n = .reply (b.cleared side) (.taken true) := by
    simp only [finish, hempty, ite_true]
  rw [← List.append_nil ((batchOf items).map emission)]
  subst hb
  apply captureOr_ends hx hn
  · rfl
  · rw [hfin]
    exact Ends.reply _ _ 0

theorem Shows.enqueue_disposed (h : b.Shows size t) (hd : t.disposed = true) (e : LogEntry) :
    settled (b.enqueue e) = ([], b, .disposed) := by
  have hend : b.enqueue e = .reply b .disposed := by
    unfold LogBatcher.enqueue
    rw [if_pos (h.disposed.trans hd)]
  rw [hend]
  exact (Ends.reply b .disposed 0).settled (by decide)

/-- The active side with one more entry in it: with the last one it is sent, and the first one arms the alarm. -/
theorem Shows.enqueue (h : b.Shows size t) (hf : t.disposed = false) (e : LogEntry) :
    ∃ x : LogBuffer, x.Holds size t.disposed (t.waiting ++ [e]) ∧ x.timeout = (b.buffer b.active).timeout ∧
      settled (b.enqueue e) =
        if t.waiting.length + 1 = size then
          ((batchOf (t.waiting ++ [e])).map emission,
            (((b.setBuffer b.active x).disarm b.active).turnFrom b.active).cleared b.active, .taken true)
        else
          ([], if t.waiting = [] then (b.setBuffer b.active x).arm b.active else b.setBuffer b.active x,
            .taken true) := by
  have hn := h.two
  obtain ⟨x, hadd, hx, ht⟩ := (hf ▸ h.active).add h.sound.room e
  have hx' : x.Holds size t.disposed (t.waiting ++ [e]) := hf ▸ hx
  refine ⟨x, hx', ht, ?_⟩
  simp only [LogBatcher.enqueue, h.disposed, hf, Bool.false_eq_true, ite_false, hadd, LogBuffer.statusOf,
    Option.isSome_none]
  by_cases hlast : t.waiting.length + 1 = size
  · rw [if_neg (by omega), if_pos hlast, if_pos hlast]
    have hb : (((b.setBuffer b.active x).disarm b.active).turnFrom b.active).buffer b.active = x := by
      simp [LogBatcher.disarm]
    exact (lastSlot_ends (by omega) hx' hb).settled (by decide)
  · rw [if_neg hlast, if_neg hlast]
    by_cases hw : t.waiting = []
    · rw [if_pos (by rw [hw]; rfl), if_pos hw]
      exact (Ends.reply _ (.taken true) 0).settled (by decide)
    · have hpos := List.length_pos_iff.mpr hw
      rw [if_neg (by omega), if_neg hw]
      exact (Ends.reply _ (.taken true) 0).settled (by decide)

theorem Like.enqueue (h : b.Like size t) (e : LogEntry) :
    ∃ b', settled (b.enqueue e) = ((t.perform size (.add e)).1.map emission, b', (t.perform size (.add e)).2.2) ∧
      b'.Like size (t.perform size (.add e)).2.1 := by
  rcases t.add_cases size e with ⟨hd, hp⟩ | ⟨hf, hlast, hp⟩ | ⟨hf, hlast, hp⟩
  · rw [hp, h.toShows.enqueue_disposed hd]
    exact ⟨b, rfl, h⟩
  · obtain ⟨x, hx, -, hend⟩ := h.toShows.enqueue hf e
    rw [if_pos hlast] at hend
    rw [hp, hend]
    refine ⟨_, rfl, ?_⟩
    apply h.cleared
    · simp [disarm]
    · simpa [disarm] using hx
    · intro s hs
      simp only [disarm, buffer_turnFrom, buffer_setAlarm]
      rw [buffer_setBuffer, if_neg hs]
  · obtain ⟨x, hx, -, hend⟩ := h.toShows.enqueue hf e
    have hroom := h.sound.room
    have hlen : (t.waiting ++ [e]).length < size := by
      rw [List.length_append, List.length_singleton]
      omega
    have hx' : x.Holds size false (t.waiting ++ [e]) := hf ▸ hx
    rw [if_neg hlast] at hend
    rw [hp, hend]
    refine ⟨_, rfl, ?_⟩
    obtain ⟨waiting, disposed⟩ := t
    cases hf
    -- only the first entry that waits arms the alarm
    by_cases hw : waiting = []
    · rw [if_pos hw]
      apply h.stored rfl hlen
      · simp [arm]
      · simp [arm]
      · simpa [arm] using hx'
      · intro s hs
        simp only [arm, buffer_setAlarm]
        rw [buffer_setBuffer, if_neg hs]
      · rw [arm, alarm_setAlarm, if_pos rfl]
        rfl
    · rw [if_neg hw]
      apply h.stored rfl hlen
      · exact disposed_setBuffer b b.active x
      · exact active_setBuffer b b.active x
      · simpa using hx'
      · intro s hs
        rw [buffer_setBuffer, if_neg hs]
      · rw [alarm_setBuffer]
        exact h.armed hw

theorem Like.perform (h : b.Like size t) (a : BatchAct LogEntry) :
    ∃ b', b.perform a = ((t.perform size a).1.map emission, b', (t.perform size a).2.2) ∧
      b'.Like size (t.perform size a).2.1 := by
  cases a with
  | add e => exact h.enqueue e
  | flush => exact h.flush
  | ring => exact Like.onBoth (fun h side => h.ring side) h
  | late => exact Like.onBoth (fun h side => h.late side) h
  | dispose => exact h.dispose

/-! ## Runs -/

theorem make_eq {settings : BatchSettings} (hv : settings.validate = .ok ()) (hn : 2 ≤ settings.maxSize) :
    ∃ b, make settings = .ok b ∧ b.Like settings.maxSize.toNat {} := by
  have htwo : 2 ≤ settings.maxSize.toNat := UInt64.le_iff_toNat_le.mp hn
  have hi : settings.flushInterval ≠ .zero := by
    intro hz
    unfold BatchSettings.validate at hv
    split at hv
    · cases hv
    · rw [if_pos (Or.inl hz)] at hv
      cases hv
  let x : LogBuffer := ⟨.fresh settings.maxSize.toNat, settings.flushInterval, {}, false⟩
  have hmake : LogBuffer.make settings.maxSize settings.flushInterval = .ok x := by
    unfold LogBuffer.make SlotBuffer.make
    rw [if_neg hi, if_neg (UInt64.not_lt.mpr hn)]
    rfl
  refine ⟨{ left := x, right := x }, ?_, ?_⟩
  · unfold make
    rw [hv, hmake]
    rfl
  · apply like_of_empty htwo rfl
    have hx : x.Holds settings.maxSize.toNat false [] := ⟨rfl, rfl, rfl, SlotBuffer.holds_fresh _⟩
    intro side
    cases side with
    | left => exact hx
    | right => exact hx

theorem callsOf_tray (h : b.Like size t) (acts : List (BatchAct LogEntry)) :
    (callsOf perform b acts).1 = (callsOf (Tray.perform size) t acts).1.map (.map emission) ∧
      (callsOf perform b acts).2.Like size (callsOf (Tray.perform size) t acts).2 :=
  callsOf_alike (fun _ _ a h => h.perform a) h acts

/-- In whatever order entries come in, alarms go off, and batches are sent by hand, the two sides are to their users
one buffer: each call sends the same envelopes and replies the same, and as much waits after it. Nothing waits on the
side that is not active. -/
theorem alike_single {settings : BatchSettings} (hv : settings.validate = .ok ()) (hn : 2 ≤ settings.maxSize) :
    ∃ logs plain, make settings = .ok logs ∧
      Batcher.make settings .log (some LogEntry.contentType) = .ok plain ∧
      ∀ acts,
        (callsOf perform logs acts).1 = (callsOf Batcher.perform plain acts).1 ∧
        (callsOf perform logs acts).2.pending = (callsOf Batcher.perform plain acts).2.pending ∧
        (∀ what ∈ sentIn (callsOf perform logs acts).1, what.envelope?.isSome = true) ∧
        ∀ side, ((callsOf perform logs acts).2.buffer side).isEmpty = false →
          side = (callsOf perform logs acts).2.active := by
  obtain ⟨logs, hlogs, hlike⟩ := make_eq hv hn
  have hsize : 1 < settings.maxSize.toNat := UInt64.le_iff_toNat_le.mp hn
  obtain ⟨plain, hplain⟩ : ∃ plain : Batcher LogEntry,
      Batcher.make settings .log (some LogEntry.contentType) = .ok plain := by
    have hone : ¬ settings.maxSize = 1 := by
      intro hone
      rw [hone] at hsize
      exact absurd hsize (by decide)
    unfold Batcher.make SlotBuffer.make
    simp only [hv, if_neg hone, if_neg (UInt64.not_lt.mpr hn)]
    exact ⟨_, rfl⟩
  refine ⟨logs, plain, hlogs, hplain, ?_⟩
  intro acts
  -- both are one tray to their callers
  obtain ⟨hcalls, hshows⟩ := callsOf_tray hlike acts
  obtain ⟨hcalls', hshows'⟩ := Batcher.callsOf_tray hplain acts
  refine ⟨?_, ?_, ?_, ?_⟩
  · rw [hcalls, hcalls']
    rfl
  · rw [hshows.pending, hshows'.pending]
  · intro what hw
    rw [hcalls, sentIn_map] at hw
    obtain ⟨items, -, rfl⟩ := List.mem_map.mp hw
    have hwrite : ∀ e ∈ items, (BatchItem.json? e).isSome = true := fun _ _ => rfl
    rw [emission, ofItems_writable _ _ hwrite]
    rfl
  · intro side hside
    by_cases hs : side = (callsOf perform logs acts).2.active
    · exact hs
    · have hempty := (hshows.idle hs).isEmpty (by omega)
      rw [hempty] at hside
      cases hside

def twins : LogBatcher where
  left := ⟨.fresh 2, .ofMillis 100, {}, false⟩
  right := ⟨.fresh 2, .ofMillis 100, {}, false⟩

/-- Each side becomes active twice, and an alarm goes off that was armed for what has gone. -/
def twinActs : List (BatchAct LogEntry) :=
  let e : LogEntry := { timestamp := ⟨0⟩, level := .info, body := "a" }
  [.add e, .add e, .add e, .ring, .add e, .flush, .ring, .add e, .add e, .add e, .late, .add e, .dispose, .add e, .flush]

theorem alike_single_twins :
    BatchSettings.validate ⟨2, .ofMillis 100⟩ = .ok () ∧ (2 : UInt64) ≤ 2 ∧
    make ⟨2, .ofMillis 100⟩ = .ok twins ∧
    (callsOf perform twins twinActs).1.map (fun c => (c.out.length, c.reply)) =
      [(0, .taken true), (1, .taken true), (0, .taken true), (1, .done), (0, .taken true), (1, .count 1), (0, .done),
        (0, .taken true), (1, .taken true), (0, .taken true), (1, .done), (0, .taken true), (1, .done), (0, .disposed),
        (0, .count 0)] ∧
    ∃ plain, Batcher.make ⟨2, .ofMillis 100⟩ .log (some LogEntry.contentType) = .ok plain ∧
      (callsOf perform twins twinActs).1 = (callsOf Batcher.perform plain twinActs).1 := by
  have hv : BatchSettings.validate ⟨2, .ofMillis 100⟩ = .ok () := by
    unfold BatchSettings.validate
    rw [if_neg (by decide), if_neg (by decide)]
  have hn : (2 : UInt64) ≤ 2 := by decide
  have hmake : make ⟨2, .ofMillis 100⟩ = .ok twins := by
    unfold make LogBuffer.make SlotBuffer.make
    rw [hv, if_neg (by decide), if_neg (by decide)]
    rfl
  obtain ⟨logs, plain, hlogs, hplain, hall⟩ := alike_single hv hn
  cases hmake.symm.trans hlogs
  exact ⟨hv, hn, hmake, by decide +kernel, plain, hplain, (hall twinActs).1⟩

end LogBatcher

end Courier

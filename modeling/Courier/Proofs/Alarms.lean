import Courier.Proofs.Bins
import Courier.Proofs.TwoSides

/-!
# Alarms of batchers

A batcher has one bin and a log batcher has two. In both of them the first item arms the alarm of its bin, and nothing
else does; an alarm that is still armed when its bin has been emptied sends nothing and is armed anew for the next
item.
-/

namespace Courier

/-! ## One bin -/

namespace Batcher

variable {α : Type} [BatchItem α] {b : Batcher α} {size : Nat} {send : List α → Emission} {t : Tray α} {x? : Option α}

def callFor : BinAct α Unit → BatchAct α
  | .add x => .add x
  | .flush => .flush
  | .ring _ => .ring
  | .dispose => .dispose

def bin (b : Batcher α) : Bin α := ⟨b.waiting, b.alarm, b.interval, b.disposed⟩

def bins : Bins (Batcher α) α Unit where
  perform b a := b.perform (callFor a)
  bin b _ := b.bin
  disarm b _ := b.disarm

omit [BatchItem α] in
theorem bin_eq {slots : SlotBuffer α} {items : List α} (hb : b.buffer = some slots) (hs : slots.Holds items) :
    b.bin = ⟨items, b.alarm, b.interval, b.disposed⟩ := by
  unfold bin waiting
  rw [hb, Option.map_some, Option.getD_some, hs.toList]

theorem Shows.bin (h : b.Shows size send t) : b.bin = ⟨t.waiting, b.alarm, b.interval, b.disposed⟩ := by
  rw [Batcher.bin, h.waiting]

theorem Shows.bin_cleared (h : b.Shows size send t) : b.cleared.bin = ⟨[], b.alarm, b.interval, b.disposed⟩ :=
  h.cleared.toShows.bin

theorem Shows.slots (h : b.Shows size send t) (hn : 2 ≤ size) :
    ∃ slots, b.buffer = some slots ∧ slots.capacity = size ∧ slots.Holds t.waiting := by
  cases hb : b.buffer with
  | none =>
    have hone := h.single hb
    omega
  | some slots =>
    obtain ⟨-, hc, hs⟩ := h.gathers slots hb
    exact ⟨slots, rfl, hc, hs⟩

theorem Shows.step_add (h : b.Shows size send t) (hn : 2 ≤ size) (x : α) :
    Bin.Step (some x) b.bin (b.perform (.add x)).2.1.bin := by
  by_cases hd : t.disposed = true
  · rw [h.enqueue_disposed hd]
    exact .same
  · have hf : t.disposed = false := by simpa using hd
    obtain ⟨slots, hb, hc, hs⟩ := h.slots hn
    rw [h.bin]
    by_cases hlast : t.waiting.length + 1 = size
    · rw [h.enqueue_last hf hb hlast, bin_eq rfl (SlotBuffer.holds_fresh size)]
      exact .quiet
    · have hadd := (hs.add (hc ▸ h.sound.room) x).2
      rw [h.enqueue_room hf hb hlast]
      unfold stored
      by_cases hw : t.waiting = []
      · rw [hw] at hadd ⊢
        rw [if_pos (show ([] : List α).length + 1 = 1 from rfl), arm, bin_eq rfl hadd]
        exact .first (h.disposed.trans hf) rfl
      · have hpos := List.length_pos_iff.mpr hw
        rw [if_neg (by omega), bin_eq rfl hadd]
        exact .more hw

theorem Shows.step_flush (h : b.Shows size send t) : Bin.Step x? b.bin (b.perform .flush).2.1.bin := by
  have hsettle : b.perform .flush = _ := h.flushFrom nofun
  rw [hsettle, h.bin_cleared, h.bin]
  exact .sent

theorem start_ring (b : Batcher α) :
    b.start .ring = if b.alarm.isArmed then b.disarm.timeout else .reply b .done := rfl

theorem Shows.perform_ring (h : b.Shows size send t) (ha : b.alarm.isArmed = true) :
    b.perform .ring = ((Tray.batchOf t.waiting).map send, b.disarm.cleared, .done) := by
  unfold Batcher.perform
  rw [start_ring, if_pos ha]
  exact h.disarm.flushFrom nofun

theorem Shows.step_ring (h : b.Shows size send t) : Bin.Step x? b.bin (b.perform .ring).2.1.bin := by
  by_cases ha : b.alarm.isArmed = true
  · rw [h.perform_ring ha, h.disarm.bin_cleared, h.bin]
    exact .quiet
  · unfold Batcher.perform
    rw [start_ring, if_neg ha]
    exact .same

theorem Shows.step_dispose (h : b.Shows size send t) : Bin.Step x? b.bin (b.perform .dispose).2.1.bin := by
  by_cases hd : t.disposed = true
  · rw [h.dispose_again hd]
    exact .same
  · have hbin : ({ b.disarm.cleared with disposed := true } : Batcher α).bin =
        ⟨[], b.alarm.disarm, b.interval, true⟩ := by
      exact congrArg (Bin.mk · b.alarm.disarm b.interval true) (congrArg Bin.items h.disarm.bin_cleared)
    rw [h.dispose (by simpa using hd), hbin, h.bin]
    exact .shut

theorem Shows.ring_empty (h : b.Shows size send t) (hn : 2 ≤ size) (ha : b.alarm.isArmed = true)
    (hw : t.waiting = []) : b.perform .ring = ([], b.disarm, .done) := by
  obtain ⟨slots, hb, hc, hs⟩ := h.slots hn
  rw [hw] at hs
  have hsame : b.disarm.cleared = b.disarm := by
    unfold Batcher.cleared Batcher.disarm
    rw [hb, Option.map_some, ← hs.eq_fresh (by omega)]
  rw [h.perform_ring ha, hw, hsame]
  rfl

theorem bins_lawful (hn : 2 ≤ size) (send : List α → Emission) :
    bins.Lawful fun b : Batcher α => ∃ t, b.Like size send t where
  keeps := by
    rintro b ⟨t, h⟩ a
    obtain ⟨b', hb, hlike⟩ := h.perform (callFor a)
    have hp : bins.perform b a = b.perform (callFor a) := rfl
    rw [hp, hb]
    exact ⟨_, hlike⟩
  step := by
    rintro b ⟨t, h⟩ a i
    cases a with
    | add x => exact h.toShows.step_add hn x
    | flush => exact h.toShows.step_flush
    | ring _ => exact h.toShows.step_ring
    | dispose => exact h.toShows.step_dispose
  closes := by
    rintro b ⟨t, h⟩ i
    obtain ⟨b', hb, hlike⟩ := h.dispose
    have hp : bins.perform b .dispose = b.perform .dispose := rfl
    rw [hp, hb]
    exact hlike.disposed
  stale := by
    rintro b ⟨t, h⟩ i ha he
    exact h.toShows.ring_empty hn ha (h.waiting.symm.trans he)

omit [BatchItem α] in
theorem make_bin {settings : BatchSettings} {kind : ItemKind} {contentType : Option String}
    (hb : make settings kind contentType = .ok b) : b.bin = ⟨[], {}, settings.flushInterval, false⟩ := by
  unfold make at hb
  split at hb
  · cases hb
  · simp only at hb
    split at hb
    · cases hb
      rfl
    · unfold SlotBuffer.make at hb
      split at hb
      · cases hb
      · cases hb
        exact bin_eq rfl (SlotBuffer.holds_fresh _)

end Batcher

/-! ## Two bins -/

namespace LogBatcher

variable {b : LogBatcher} {size : Nat} {t : Tray LogEntry} {side s : Side} {x? : Option LogEntry}

def bin (b : LogBatcher) (side : Side) : Bin LogEntry :=
  ⟨(b.buffer side).slots.toList, b.alarm side, (b.buffer side).timeout, b.disposed⟩

def callFor (b : LogBatcher) : BinAct LogEntry Side → Step
  | .add e => b.enqueue e
  | .flush => b.flush
  | .ring side => b.ring side
  | .dispose => b.dispose

def bins : Bins LogBatcher LogEntry Side where
  perform b a := settled (b.callFor a)
  bin := bin
  disarm := disarm

theorem Shows.items (h : b.Shows size t) (side : Side) : (b.bin side).items = share t b.active side :=
  (h.sides side).slots.toList

/-! What the parts of an operation do to each bin. -/

theorem bin_setBuffer_self (b : LogBatcher) (side : Side) (x : LogBuffer) :
    (b.setBuffer side x).bin side = ⟨x.slots.toList, b.alarm side, x.timeout, b.disposed⟩ := by
  unfold bin
  rw [buffer_setBuffer_self, alarm_setBuffer, disposed_setBuffer]

theorem bin_setBuffer_other (b : LogBatcher) (x : LogBuffer) (h : s ≠ side) :
    (b.setBuffer side x).bin s = b.bin s := by
  unfold bin
  rw [buffer_setBuffer, if_neg h, alarm_setBuffer, disposed_setBuffer]

theorem bin_setAlarm_self (b : LogBatcher) (side : Side) (x : Alarm Unit) :
    (b.setAlarm side x).bin side = { b.bin side with alarm := x } := by
  unfold bin
  rw [buffer_setAlarm, alarm_setAlarm, if_pos rfl, disposed_setAlarm]

theorem bin_setAlarm_other (b : LogBatcher) (x : Alarm Unit) (h : s ≠ side) :
    (b.setAlarm side x).bin s = b.bin s := by
  unfold bin
  rw [buffer_setAlarm, alarm_setAlarm, if_neg h, disposed_setAlarm]

theorem bin_arm_other (b : LogBatcher) (h : s ≠ side) : (b.arm side).bin s = b.bin s :=
  bin_setAlarm_other b _ h

theorem bin_disarm_self (b : LogBatcher) (side : Side) :
    (b.disarm side).bin side = { b.bin side with alarm := (b.alarm side).disarm } :=
  bin_setAlarm_self b side _

theorem bin_disarm_other (b : LogBatcher) (h : s ≠ side) : (b.disarm side).bin s = b.bin s :=
  bin_setAlarm_other b _ h

theorem bin_turnFrom (b : LogBatcher) (side s : Side) : (b.turnFrom side).bin s = b.bin s := by
  have ha : (b.turnFrom side).alarm s = b.alarm s := by
    unfold turnFrom
    by_cases h : b.active = side
    · rw [if_pos h]
      cases s <;> rfl
    · rw [if_neg h]
  unfold bin
  rw [buffer_turnFrom, disposed_turnFrom, ha]

theorem toList_cleared (x : LogBuffer) : x.cleared.slots.toList = [] := (SlotBuffer.holds_fresh _).toList

theorem bin_cleared_self (b : LogBatcher) (side : Side) :
    (b.cleared side).bin side = { b.bin side with items := [] } := by
  unfold cleared
  rw [bin_setBuffer_self, toList_cleared]
  rfl

theorem bin_cleared_other (b : LogBatcher) (h : s ≠ side) : (b.cleared side).bin s = b.bin s :=
  bin_setBuffer_other b _ h

theorem bin_shut_self (b : LogBatcher) (side : Side) :
    (b.shut side).bin side = { b.bin side with items := [], alarm := (b.alarm side).disarm } := by
  have ha : (b.disarm side).alarm side = (b.alarm side).disarm := congrArg Bin.alarm (bin_disarm_self b side)
  have hd : (b.disarm side).disposed = b.disposed := disposed_setAlarm b side _
  unfold shut
  rw [bin_setBuffer_self, toList_cleared, ha, hd]
  rfl

theorem bin_shut_other (b : LogBatcher) (h : s ≠ side) : (b.shut side).bin s = b.bin s := by
  unfold shut
  rw [bin_setBuffer_other _ _ h, bin_disarm_other b h]

/-! What each operation does to each bin. -/

theorem left_ne_right : Side.left ≠ Side.right := nofun

theorem Shows.step_add (h : b.Shows size t) (e : LogEntry) (side : Side) :
    Bin.Step (some e) (b.bin side) ((settled (b.enqueue e)).2.1.bin side) := by
  by_cases hd : t.disposed = true
  · rw [h.enqueue_disposed hd]
    exact .same
  · have hf : t.disposed = false := by simpa using hd
    obtain ⟨x, hx, ht, hend⟩ := h.enqueue hf e
    have hold : (b.bin b.active).items = t.waiting := h.active.slots.toList
    rw [hend]
    by_cases hs : side = b.active
    · subst hs
      by_cases hlast : t.waiting.length + 1 = size
      · rw [if_pos hlast, bin_cleared_self, bin_turnFrom, bin_disarm_self, bin_setBuffer_self, alarm_setBuffer, ht]
        exact .quiet
      · rw [if_neg hlast]
        by_cases hw : t.waiting = []
        · have hbin : ((b.setBuffer b.active x).arm b.active).bin b.active =
              ⟨[e], (b.alarm b.active).arm x.timeout (), x.timeout, b.disposed⟩ := by
            unfold LogBatcher.arm
            rw [bin_setAlarm_self, bin_setBuffer_self, buffer_setBuffer_self, alarm_setBuffer, hx.slots.toList, hw]
            rfl
          rw [if_pos hw, hbin, ht]
          exact .first (h.disposed.trans hf) (hold.trans hw)
        · rw [if_neg hw, bin_setBuffer_self, hx.slots.toList, ht, ← hold]
          exact .more (by rw [hold]; exact hw)
    · -- Nothing comes to the other side.
      have hother : (b.setBuffer b.active x).bin side = b.bin side := bin_setBuffer_other b x hs
      by_cases hlast : t.waiting.length + 1 = size
      · rw [if_pos hlast, bin_cleared_other _ hs, bin_turnFrom, bin_disarm_other _ hs, hother]
        exact .same
      · rw [if_neg hlast]
        by_cases hw : t.waiting = []
        · rw [if_pos hw, bin_arm_other _ hs, hother]
          exact .same
        · rw [if_neg hw, hother]
          exact .same

theorem Shows.step_flush (h : b.Shows size t) (side : Side) :
    Bin.Step x? (b.bin side) ((settled b.flush).2.1.bin side) := by
  have hn := h.two
  have hend := (flush_ends (h.sides .left) (h.sides .right) (by omega)).settled (by decide)
  have hbin : ((b.cleared .left).cleared .right).bin side = { b.bin side with items := [] } := by
    cases side with
    | left => rw [bin_cleared_other _ left_ne_right, bin_cleared_self]
    | right => rw [bin_cleared_self, bin_cleared_other _ left_ne_right.symm]
  rw [hend, hbin]
  exact .sent

theorem Shows.step_ring (h : b.Shows size t) (s side : Side) :
    Bin.Step x? (b.bin side) ((settled (b.ring s)).2.1.bin side) := by
  unfold LogBatcher.ring
  by_cases ha : (b.alarm s).isArmed = true
  · rw [if_pos ha]
    have hd := h.disarm s
    have hactive : (b.disarm s).active = b.active := active_setAlarm b s _
    by_cases hi : share t (b.disarm s).active s = []
    · rw [hd.timeout_empty hi]
      by_cases hs : side = s
      · subst hs
        have hitems : (b.bin side).items = [] := by
          rw [h.items, ← hactive]
          exact hi
        have hbin : (b.disarm side).bin side = { b.bin side with items := [], alarm := (b.alarm side).disarm } := by
          rw [bin_disarm_self, ← hitems]
        rw [hbin]
        exact .quiet
      · rw [bin_disarm_other b hs]
        exact .same
    · have hs : s = (b.disarm s).active := by
        by_cases hs : s = (b.disarm s).active
        · exact hs
        · exact absurd (by rw [share, if_neg hs]) hi
      have hw : t.waiting ≠ [] := by
        intro hw
        rw [share, hw, ite_self] at hi
        exact hi rfl
      have hend := hd.timeout_active hw
      rw [← hs] at hend
      rw [hend]
      by_cases hside : side = s
      · subst hside
        rw [bin_cleared_self, bin_turnFrom, bin_disarm_self]
        exact .quiet
      · rw [bin_cleared_other _ hside, bin_turnFrom, bin_disarm_other b hside]
        exact .same
  · rw [if_neg ha, (Ends.reply b .done 0).settled (by decide)]
    exact .same

theorem Shows.step_dispose (h : b.Shows size t) (side : Side) :
    Bin.Step x? (b.bin side) ((settled b.dispose).2.1.bin side) := by
  by_cases hd : b.disposed = true
  · have hend : Ends b.dispose 0 [] b .done := by
      unfold LogBatcher.dispose
      rw [if_pos hd]
      exact Ends.reply b .done 0
    rw [hend.settled (by decide)]
    exact .same
  · have hend := (dispose_ends (h.sides .left) (h.sides .right) (by simpa using hd)).settled (by decide)
    have hbin : ((({ b with disposed := true } : LogBatcher).shut .left).shut .right).bin side =
        { b.bin side with items := [], alarm := (b.alarm side).disarm, closed := true } := by
      cases side with
      | left =>
        rw [bin_shut_other _ left_ne_right, bin_shut_self]
        rfl
      | right =>
        rw [bin_shut_self, bin_shut_other _ left_ne_right.symm]
        rfl
    rw [hend, hbin]
    exact .shut

theorem bins_lawful (size : Nat) : bins.Lawful fun b => ∃ t, b.Like size t where
  keeps := by
    rintro b ⟨t, h⟩ a
    have hp : bins.perform b a = settled (b.callFor a) := rfl
    rw [hp]
    cases a with
    | add e =>
      obtain ⟨b', hb, hlike⟩ := h.enqueue e
      exact ⟨_, by rw [callFor, hb]; exact hlike⟩
    | flush =>
      obtain ⟨b', hb, hlike⟩ := h.flush
      exact ⟨_, by rw [callFor, hb]; exact hlike⟩
    | ring side =>
      obtain ⟨b', hb, hlike⟩ := h.ring side
      rw [callFor, hb]
      -- an alarm of the other side finds nothing there
      by_cases hs : side = b.active
      · rw [if_pos hs] at hlike
        exact ⟨_, hlike⟩
      · rw [if_neg hs] at hlike
        exact ⟨_, hlike.1⟩
    | dispose =>
      obtain ⟨b', hb, hlike⟩ := h.dispose
      exact ⟨_, by rw [callFor, hb]; exact hlike⟩
  step := by
    rintro b ⟨t, h⟩ a side
    cases a with
    | add e => exact h.toShows.step_add e side
    | flush => exact h.toShows.step_flush side
    | ring s => exact h.toShows.step_ring s side
    | dispose => exact h.toShows.step_dispose side
  closes := by
    rintro b ⟨t, h⟩ side
    obtain ⟨b', hb, hlike⟩ := h.dispose
    have hp : bins.perform b .dispose = settled b.dispose := rfl
    rw [hp, hb]
    exact hlike.disposed
  stale := by
    rintro b ⟨t, h⟩ side ha he
    have hi : share t (b.disarm side).active side = [] := by
      rw [show (b.disarm side).active = b.active from active_setAlarm b side _, ← h.items]
      exact he
    have hp : bins.perform b (.ring side) = settled (b.ring side) := rfl
    have hring : b.ring side = (b.disarm side).timeout side := if_pos ha
    rw [hp, hring]
    exact (h.disarm side).timeout_empty hi

theorem make_bin {settings : BatchSettings} (hb : make settings = .ok b) (side : Side) :
    b.bin side = ⟨[], {}, settings.flushInterval, false⟩ := by
  unfold make at hb
  split at hb
  · cases hb
  · unfold LogBuffer.make SlotBuffer.make at hb
    split at hb
    · cases hb
    · split at hb
      · cases hb
      · cases hb
        have hempty := (SlotBuffer.holds_fresh settings.maxSize.toNat : SlotBuffer.Holds _ ([] : List LogEntry)).toList
        cases side with
        | left => exact congrArg (Bin.mk · {} settings.flushInterval false) hempty
        | right => exact congrArg (Bin.mk · {} settings.flushInterval false) hempty

theorem make_like {settings : BatchSettings} (hb : make settings = .ok b) (hn : 2 ≤ settings.maxSize) :
    b.Like settings.maxSize.toNat {} := by
  have hv : settings.validate = .ok () := by
    unfold make at hb
    cases hv : settings.validate with
    | error e => rw [hv] at hb; cases hb
    | ok _ => rfl
  obtain ⟨b', hb', hlike⟩ := make_eq hv hn
  cases hb.symm.trans hb'
  exact hlike

end LogBatcher

/-- Whatever is done with a batcher of either kind, each item that waits has an armed alarm behind it, which was armed
with the flush interval when the first of the items that wait came; as long as no alarm is late, none of them waits
longer than that. An alarm that is armed while nothing waits sends nothing and changes nothing, and none is armed
once the batcher was disposed of. -/
theorem alarms_tended {α : Type} [BatchItem α] {settings : BatchSettings} {kind : ItemKind}
    {contentType : Option String} {plain : Batcher α} {logs : LogBatcher} (hn : 2 ≤ settings.maxSize)
    (hplain : Batcher.make settings kind contentType = .ok plain) (hlogs : LogBatcher.make settings = .ok logs) :
    Batcher.bins.Tended plain settings.flushInterval ∧ LogBatcher.bins.Tended logs settings.flushInterval := by
  have htwo : 2 ≤ settings.maxSize.toNat := UInt64.le_iff_toNat_le.mp hn
  constructor
  · have hlawful := Batcher.bins_lawful htwo (Emission.ofItems (α := α) kind contentType)
    exact hlawful.tended ⟨_, Batcher.make_like hplain⟩ fun _ => Batcher.make_bin hplain
  · have hlawful := LogBatcher.bins_lawful settings.maxSize.toNat
    exact hlawful.tended ⟨_, LogBatcher.make_like hlogs hn⟩ (LogBatcher.make_bin hlogs)

/-- The alarm that was armed for an entry that is gone is armed anew for the next one, before it is due. -/
def rearmed : List (Moment LogEntry Side) :=
  let add body := Moment.act (.add { timestamp := ⟨0⟩, level := .info, body })
  [.wait 60000000, add "b", .act .flush, .wait 60000000, add "a"]

theorem alarms_tended_rearmed :
    (2 : UInt64) ≤ 2 ∧ Batcher.make ⟨2, .ofMillis 100⟩ .span none = .ok Batcher.pair ∧
    LogBatcher.make ⟨2, .ofMillis 100⟩ = .ok LogBatcher.twins ∧
    Batcher.bins.Tended Batcher.pair (.ofMillis 100) ∧ LogBatcher.bins.Tended LogBatcher.twins (.ofMillis 100) ∧
    (LogBatcher.bins.items LogBatcher.twins rearmed .left).map (·.body) = ["b"] ∧
    LogBatcher.bins.Punctual LogBatcher.twins rearmed := by
  have hn : (2 : UInt64) ≤ 2 := by decide
  have hplain : Batcher.make ⟨2, .ofMillis 100⟩ .span none = .ok Batcher.pair := rfl
  have hlogs : LogBatcher.make ⟨2, .ofMillis 100⟩ = .ok LogBatcher.twins := by
    unfold LogBatcher.make LogBuffer.make SlotBuffer.make
    rw [show BatchSettings.validate ⟨2, .ofMillis 100⟩ = .ok () by
      unfold BatchSettings.validate
      rw [if_neg (by decide), if_neg (by decide)], if_neg (by decide), if_neg (by decide)]
    rfl
  obtain ⟨hplain', hlogs'⟩ := alarms_tended hn hplain hlogs
  refine ⟨hn, hplain, hlogs, hplain', hlogs', by decide +kernel, ?_⟩
  have hadd : LogBatcher.bins.Punctual LogBatcher.twins (rearmed.drop 4) := trivial
  apply Bins.Punctual.wait
  · apply hadd.wait
    intro side
    cases side <;> decide +kernel
  · intro side
    cases side <;> decide +kernel

end Courier

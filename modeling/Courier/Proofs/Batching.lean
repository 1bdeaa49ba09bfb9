import Courier.Batch.Processor
import Courier.Json.Access
import Courier.Loss.Ledger
import Courier.Proofs.Json.Object
import Courier.Proofs.Slots
import Courier.Proofs.Tray

/-!
# Batches

A batcher is to its users what a tray is. So whatever is done with it, what it has taken is in its batches or waits,
in order and each item once.
-/

namespace Courier

open Tray (batchOf)

/-! ## Reading batches -/

def Emission.envelope? : Emission → Option Envelope
  | .envelope e => some e
  | .loss _ _ => none

def Emission.account (ledger : Ledger) : Emission → Ledger
  | .envelope _ => ledger
  | .loss l n => ledger.record l n

def envelopesOf (out : List Emission) : List Envelope := out.filterMap Emission.envelope?

def Item.entries (i : Item) : List Json := (i.payload.json?.map (·.list "items")).getD []

def Envelope.entries (e : Envelope) : List Json := e.items.flatMap Item.entries

def entriesOf (out : List Emission) : List Json := (envelopesOf out).flatMap Envelope.entries

/-- One item of this kind with at least one entry and at most so many, which says how many there are. -/
def Envelope.IsBatch (e : Envelope) (kind : ItemKind) (size : Nat) : Prop :=
  ∃ i, e.items = [i] ∧ i.kind = .ofName kind.name ∧ i.count.toNat = i.entries.length ∧ 1 ≤ i.entries.length ∧
    i.entries.length ≤ size

theorem mapM_writable {α β : Type} {f : α → Option β} {items : List α} (hw : ∀ x ∈ items, (f x).isSome = true) :
    items.mapM f = some (items.filterMap f) ∧ items.map f = (items.filterMap f).map some := by
  induction items with
  | nil => exact ⟨rfl, rfl⟩
  | cons x items ih =>
    obtain ⟨y, hy⟩ := Option.isSome_iff_exists.mp (hw x (by simp))
    obtain ⟨hm, hs⟩ := ih fun z hz => hw z (by simp [hz])
    refine ⟨?_, ?_⟩
    · simp [List.mapM_cons, hm, hy]
    · simp [hs, hy]

section
variable {α : Type} [BatchItem α] (kind : ItemKind) (contentType : Option String) {items : List α} {size : Nat}

def batchItem (items : List α) : Item :=
  let item := (Item.make kind (.json (.obj [("items", .arr (items.filterMap BatchItem.json?))]))).withCount
    items.length.toUInt64
  match contentType with
  | some s => item.withHeader "content_type" (.str s)
  | none => item

def batchEnvelope (items : List α) : Envelope := ⟨[], [batchItem kind contentType items]⟩

theorem ofItems_writable (hw : ∀ x ∈ items, (BatchItem.json? x).isSome = true) :
    Emission.ofItems kind contentType items = .envelope (batchEnvelope kind contentType items) := by
  unfold Emission.ofItems
  simp only [(mapM_writable hw).1]
  rfl

theorem get?_batchItem (items : List α) {key : String} (hk : key ≠ "content_type") :
    (batchItem kind contentType items).header.get? key =
      Object.get? (Object.set [("type", .str kind.name)] "item_count" (.ofNat items.length.toUInt64)) key := by
  cases contentType with
  | none => rfl
  | some s => exact Object.get?_set_ne _ _ hk

theorem entries_batchItem (items : List α) :
    (batchItem kind contentType items).entries = items.filterMap BatchItem.json? := by
  cases contentType <;> rfl

theorem kind_batchItem (items : List α) : (batchItem kind contentType items).kind = .ofName kind.name := by
  unfold Item.kind
  rw [get?_batchItem kind contentType items (by decide), Object.get?_set_ne _ _ (by decide)]
  rfl

theorem count_batchItem (items : List α) : (batchItem kind contentType items).count = items.length.toUInt64 := by
  unfold Item.count
  rw [get?_batchItem kind contentType items (by decide), Object.get?_set_self]
  rfl

theorem entries_batchEnvelope (items : List α) :
    (batchEnvelope kind contentType items).entries = items.filterMap BatchItem.json? := by
  unfold batchEnvelope Envelope.entries
  rw [List.flatMap_singleton, entries_batchItem]

theorem batchEnvelope_isBatch (hw : ∀ x ∈ items, (BatchItem.json? x).isSome = true) (hs : size < 2 ^ 64)
    (h : 1 ≤ items.length ∧ items.length ≤ size) : (batchEnvelope kind contentType items).IsBatch kind size := by
  have hl : (batchItem kind contentType items).entries.length = items.length := by
    have hm := congrArg List.length (mapM_writable hw).2
    rw [List.length_map, List.length_map] at hm
    rw [entries_batchItem, hm]
  refine ⟨_, rfl, kind_batchItem kind contentType items, ?_, ?_, ?_⟩
  · have hn : items.length < UInt64.size := Nat.lt_of_le_of_lt h.2 hs
    rw [count_batchItem, hl]
    exact UInt64.toNat_ofNat_of_lt' hn
  · rw [hl]
    exact h.1
  · rw [hl]
    exact h.2

variable {batches : List (List α)} (hw : ∀ items ∈ batches, ∀ x ∈ items, (BatchItem.json? x).isSome = true)
include hw

theorem map_ofItems :
    batches.map (Emission.ofItems kind contentType) =
      (batches.map (batchEnvelope kind contentType)).map Emission.envelope := by
  rw [List.map_map]
  apply List.map_congr_left
  intro items hi
  exact ofItems_writable kind contentType (hw items hi)

theorem envelopesOf_ofItems :
    envelopesOf (batches.map (Emission.ofItems kind contentType)) = batches.map (batchEnvelope kind contentType) := by
  unfold envelopesOf
  rw [map_ofItems kind contentType hw, List.filterMap_map]
  exact List.filterMap_some

theorem entriesOf_ofItems :
    (entriesOf (batches.map (Emission.ofItems kind contentType))).map some =
      batches.flatten.map BatchItem.json? := by
  have hf : ∀ x ∈ batches.flatten, (BatchItem.json? x).isSome = true := by
    intro x hx
    obtain ⟨items, hi, hx⟩ := List.mem_flatten.mp hx
    exact hw items hi x hx
  unfold entriesOf
  rw [envelopesOf_ofItems kind contentType hw, (mapM_writable hf).2, List.flatMap_map]
  simp only [entries_batchEnvelope]
  rw [List.filterMap_flatten, List.flatMap_def]

theorem account_ofItems (ledger : Ledger) :
    (batches.map (Emission.ofItems kind contentType)).foldl Emission.account ledger = ledger := by
  rw [map_ofItems kind contentType hw]
  generalize batches.map (batchEnvelope kind contentType) = envelopes
  induction envelopes with
  | nil => rfl
  | cons e envelopes ih => exact ih

end

namespace Batcher

variable {α : Type} [BatchItem α] {b : Batcher α} {size : Nat} {send : List α → Emission} {t : Tray α}

/-! ## Acts -/

def start (b : Batcher α) : BatchAct α → Step α
  | .add x => b.enqueue x
  | .flush => b.flush
  | .ring => if b.alarm.isArmed then b.disarm.timeout else .reply b .done
  | .late => b.timeout
  | .dispose => b.dispose

def perform (b : Batcher α) (a : BatchAct α) : List Emission × Batcher α × BatchReply :=
  (b.start a).settle resume Processor.turns

def waiting (b : Batcher α) : List α := (b.buffer.map SlotBuffer.toList).getD []

def Purpose.reply (n : Nat) : Purpose → BatchReply
  | .byHand => .count n
  | .lastSlot => .taken true
  | .timeout => .done

/-! ## Flushing -/

omit [BatchItem α] in
theorem finish_of_isEmpty (h : b.isEmpty = true) (n : Nat) (purpose : Purpose) :
    b.finish n purpose = .reply b (purpose.reply n) := by
  cases purpose with
  | byHand => rfl
  | lastSlot => simp [finish, h, Purpose.reply]
  | timeout => rfl

omit [BatchItem α] in
theorem isEmpty_of_fresh {n : Nat} (hn : 0 < n) (hb : b.buffer = some (.fresh n)) : b.isEmpty = true := by
  have hs : (SlotBuffer.fresh n : SlotBuffer α).Holds [] := SlotBuffer.holds_fresh n
  simp [isEmpty, hb, hs.isEmpty hn]

omit [BatchItem α] in
theorem isFull_of_fresh {n : Nat} (hn : 0 < n) (hb : b.buffer = some (.fresh n)) : b.isFull = false := by
  have hs : (SlotBuffer.fresh n : SlotBuffer α).Holds [] := SlotBuffer.holds_fresh n
  simp only [isFull, hb, Option.any_some, hs.isFull, SlotBuffer.fresh_capacity, List.length_nil]
  exact decide_eq_false (by omega)

theorem resume_of_fresh {n : Nat} (hn : 0 < n) (hb : b.buffer = some (.fresh n)) (purpose : Purpose) (k : Nat) :
    b.resume (.flush purpose k) = .reply { b with gate := {} } (purpose.reply k) := by
  have hf : ({ b with gate := {} } : Batcher α).isFull = false := isFull_of_fresh hn hb
  have he : ({ b with gate := {} } : Batcher α).isEmpty = true := isEmpty_of_fresh hn hb
  simp only [resume, FlushGate.leave, hf, Bool.false_eq_true, ite_false]
  exact finish_of_isEmpty he k purpose

theorem settle_flushFrom {slots : SlotBuffer α} {items : List α} (hb : b.buffer = some slots) (hg : b.gate = {})
    (hc : 0 < slots.capacity) (hs : slots.Holds items) (purpose : Purpose) (n : Nat) :
    (b.flushFrom purpose 0).settle resume (n + 1) =
      ((batchOf items).map b.emission, { b with buffer := some (.fresh slots.capacity) },
        purpose.reply items.length) := by
  obtain ⟨buffer, interval, kind, contentType, gate, alarm, disposed⟩ := b
  subst hb hg
  unfold flushFrom
  simp only [FlushGate.enter?, Bool.false_eq_true, ite_false, hs.drain]
  by_cases hi : items = []
  · subst hi
    rw [List.isEmpty_nil, if_pos rfl, finish_of_isEmpty (isEmpty_of_fresh hc rfl)]
    rfl
  · rw [List.isEmpty_eq_false_iff.mpr hi, if_neg Bool.false_ne_true, Turn.settle, resume_of_fresh hc rfl, Turn.settle,
      Nat.zero_add, batchOf, if_neg hi]
    rfl

/-! ## The likeness -/

/-- The batcher holds what is on the tray. -/
structure Shows (size : Nat) (send : List α → Emission) (b : Batcher α) (t : Tray α) : Prop where
  sound : t.Sound size
  emission : b.emission = send
  gate : b.gate = {}
  disposed : b.disposed = t.disposed
  single : b.buffer = none → size = 1
  gathers : ∀ slots, b.buffer = some slots → 2 ≤ size ∧ slots.capacity = size ∧ slots.Holds t.waiting

/-- The batcher is to its users what the tray is: its alarm is armed as long as something waits. -/
structure Like (size : Nat) (send : List α → Emission) (b : Batcher α) (t : Tray α) : Prop
    extends Shows size send b t where
  armed : t.waiting ≠ [] → b.alarm.isArmed = true

theorem Shows.waiting_of_none (h : b.Shows size send t) (hb : b.buffer = none) : t.waiting = [] := by
  have hr := h.sound.room
  rw [h.single hb] at hr
  exact List.length_eq_zero_iff.mp (by omega)

theorem Shows.waiting (h : b.Shows size send t) : b.waiting = t.waiting := by
  unfold Batcher.waiting
  cases hb : b.buffer with
  | none => simp [h.waiting_of_none hb]
  | some slots => simp [(h.gathers slots hb).2.2.toList]

theorem Shows.pending (h : b.Shows size send t) : b.pending = t.waiting.length := by
  unfold Batcher.pending
  cases hb : b.buffer with
  | none => simp [h.waiting_of_none hb]
  | some slots => simp [(h.gathers slots hb).2.2.count]

theorem Shows.disarm (h : b.Shows size send t) : b.disarm.Shows size send t :=
  ⟨h.sound, h.emission, h.gate, h.disposed, h.single, h.gathers⟩

def cleared (b : Batcher α) : Batcher α := { b with buffer := b.buffer.map fun slots => .fresh slots.capacity }

theorem Shows.cleared (h : b.Shows size send t) : b.cleared.Like size send t.emptied := by
  refine ⟨⟨h.sound.emptied, h.emission, h.gate, h.disposed, ?_, ?_⟩, ?_⟩
  · intro hb
    apply h.single
    simpa [Batcher.cleared] using hb
  · intro slots hs
    obtain ⟨slots, hb, rfl⟩ := Option.map_eq_some_iff.mp hs
    obtain ⟨hn, hc, -⟩ := h.gathers slots hb
    exact ⟨hn, hc, SlotBuffer.holds_fresh _⟩
  · intro hne
    exact absurd rfl hne

theorem Shows.flushFrom (h : b.Shows size send t) {purpose : Purpose} (hp : purpose ≠ .lastSlot) :
    (b.flushFrom purpose 0).settle resume Processor.turns =
      ((batchOf t.waiting).map send, b.cleared, purpose.reply t.waiting.length) := by
  obtain ⟨buffer, interval, kind, contentType, gate, alarm, disposed⟩ := b
  cases buffer with
  | none =>
    rw [h.waiting_of_none rfl]
    cases purpose with
    | byHand => rfl
    | lastSlot => exact absurd rfl hp
    | timeout => rfl
  | some slots =>
    obtain ⟨hn, hc, hs⟩ := h.gathers slots rfl
    rw [← h.emission]
    exact settle_flushFrom rfl h.gate (by omega) hs purpose 3

/-! ## Each act -/

def stored (b : Batcher α) (slots : SlotBuffer α) (slot : Nat) : Batcher α :=
  if slot = 1 then ({ b with buffer := some slots } : Batcher α).arm else { b with buffer := some slots }

omit [BatchItem α] in
theorem stored_eq (b : Batcher α) (slots : SlotBuffer α) (slot : Nat) :
    ∃ alarm, b.stored slots slot = { b with buffer := some slots, alarm := alarm } ∧
      (slot = 1 ∨ b.alarm.isArmed = true → alarm.isArmed = true) := by
  unfold stored
  by_cases h : slot = 1
  · rw [if_pos h]
    exact ⟨b.alarm.arm b.interval (), rfl, fun _ => rfl⟩
  · rw [if_neg h]
    refine ⟨b.alarm, rfl, ?_⟩
    intro ha
    exact ha.resolve_left h

theorem enqueue_of_room {slots : SlotBuffer α} {items : List α} (hb : b.buffer = some slots) (hd : b.disposed = false)
    (hs : slots.Holds items) (hl : items.length < slots.capacity) (x : α) :
    b.enqueue x =
      if items.length + 1 = slots.capacity then
        (b.stored (slots.add x).2 (items.length + 1)).disarm.flushFrom .lastSlot 0
      else .reply (b.stored (slots.add x).2 (items.length + 1)) (.taken true) := by
  obtain ⟨hslot, -⟩ := hs.add hl x
  unfold enqueue
  rw [if_neg (by simp [hd]), hb]
  simp only [hslot, SlotBuffer.add_capacity, Option.isSome_none, Bool.false_eq_true, ite_false]
  rfl

theorem Like.holding (h : b.Like size send t) (hd : t.disposed = false) {slots : SlotBuffer α} {items : List α}
    {alarm : Alarm Unit} (hn : 2 ≤ size) (hc : slots.capacity = size) (hs : slots.Holds items)
    (hl : items.length < size) (ha : items ≠ [] → alarm.isArmed = true) :
    ({ b with buffer := some slots, alarm := alarm } : Batcher α).Like size send { t with waiting := items } := by
  refine ⟨⟨⟨hl, ?_⟩, h.emission, h.gate, h.disposed, nofun, ?_⟩, ha⟩
  · intro ht
    exact absurd (ht.symm.trans hd) nofun
  · intro slots' hs'
    cases hs'
    exact ⟨hn, hc, hs⟩

theorem Shows.enqueue_disposed (h : b.Shows size send t) (hd : t.disposed = true) (x : α) :
    b.perform (.add x) = ([], b, .disposed) := by
  unfold Batcher.perform
  simp only [Batcher.start, Batcher.enqueue]
  rw [if_pos (h.disposed.trans hd), Turn.settle]

section
variable {slots : SlotBuffer α} (h : b.Shows size send t) (hd : t.disposed = false) (hb : b.buffer = some slots)
include h hd hb

theorem Shows.enqueue_room (hl : t.waiting.length + 1 ≠ size) (x : α) :
    b.perform (.add x) = ([], b.stored (slots.add x).2 (t.waiting.length + 1), .taken true) := by
  obtain ⟨-, hc, hs⟩ := h.gathers slots hb
  unfold Batcher.perform
  simp only [Batcher.start]
  rw [enqueue_of_room hb (h.disposed.trans hd) hs (hc ▸ h.sound.room) x, hc, if_neg hl, Turn.settle]

/-- The last slot is not the first one, so the alarm that is disarmed was armed by another item. -/
theorem Shows.enqueue_last (hl : t.waiting.length + 1 = size) (x : α) :
    b.perform (.add x) = ((batchOf (t.waiting ++ [x])).map send,
      { b with buffer := some (.fresh size), alarm := b.alarm.disarm }, .taken true) := by
  obtain ⟨hn, hc, hs⟩ := h.gathers slots hb
  have hlt : t.waiting.length < slots.capacity := hc ▸ h.sound.room
  have hcap : (slots.add x).2.capacity = size := (slots.add_capacity x).trans hc
  have hstored : b.stored (slots.add x).2 (t.waiting.length + 1) = { b with buffer := some (slots.add x).2 } := by
    unfold stored
    rw [if_neg (by omega)]
  have hsettle := settle_flushFrom (b := { b with buffer := some (slots.add x).2, alarm := b.alarm.disarm }) rfl
    h.gate (by omega) (hs.add hlt x).2 .lastSlot 3
  rw [hcap] at hsettle
  unfold Batcher.perform
  simp only [Batcher.start]
  rw [enqueue_of_room hb (h.disposed.trans hd) hs hlt x, hc, if_pos hl, hstored, ← h.emission]
  exact hsettle

end

/-- An item that takes the last slot goes out with all that waits. -/
theorem Like.enqueue (h : b.Like size send t) (x : α) :
    ∃ b', b.perform (.add x) = ((t.perform size (.add x)).1.map send, b', (t.perform size (.add x)).2.2) ∧
      b'.Like size send (t.perform size (.add x)).2.1 := by
  rcases t.add_cases size x with ⟨hd, hp⟩ | ⟨hf, hlast, hp⟩ | ⟨hf, hlast, hp⟩
  · rw [hp, h.toShows.enqueue_disposed hd]
    exact ⟨b, rfl, h⟩
  · rw [hp]
    cases hb : b.buffer with
    | none =>
      have hw := h.waiting_of_none hb
      refine ⟨b, ?_, ?_⟩
      · unfold Batcher.perform
        simp only [Batcher.start, Batcher.enqueue, h.disposed.trans hf, hb, hw, ← h.emission]
        rfl
      · rw [Tray.emptied_of_waiting hw]
        exact h
    | some slots =>
      obtain ⟨hn, -, -⟩ := h.gathers slots hb
      refine ⟨_, h.toShows.enqueue_last hf hb hlast x, ?_⟩
      apply h.holding hf hn rfl (SlotBuffer.holds_fresh size)
      · simp only [List.length_nil]
        omega
      · intro hne
        exact absurd rfl hne
  · rw [hp]
    cases hb : b.buffer with
    | none =>
      have hw := h.waiting_of_none hb
      have hs := h.single hb
      rw [hw, hs] at hlast
      exact absurd rfl hlast
    | some slots =>
      obtain ⟨hn, hc, hs⟩ := h.gathers slots hb
      have hr := h.sound.room
      have hadd := (hs.add (hc ▸ hr) x).2
      obtain ⟨alarm, hst, ha⟩ := b.stored_eq (slots.add x).2 (t.waiting.length + 1)
      refine ⟨_, h.toShows.enqueue_room hf hb hlast x, ?_⟩
      rw [hst]
      apply h.holding hf hn ((slots.add_capacity x).trans hc) hadd
      · simp only [List.length_append, List.length_singleton]
        omega
      · -- The first item arms the alarm, and those after it find it armed.
        intro _
        apply ha
        by_cases hw : t.waiting = []
        · left
          simp [hw]
        · right
          exact h.armed hw

theorem Like.ring (h : b.Like size send t) :
    ∃ b', b.perform .ring = ((batchOf t.waiting).map send, b', .done) ∧ b'.Like size send t.emptied := by
  unfold Batcher.perform
  simp only [Batcher.start]
  by_cases ha : b.alarm.isArmed = true
  · rw [if_pos ha]
    exact ⟨_, h.disarm.flushFrom nofun, h.disarm.cleared⟩
  · -- What waits has its alarm armed, so nothing does.
    have hw : t.waiting = [] := by
      by_cases hw : t.waiting = []
      · exact hw
      · exact absurd (h.armed hw) ha
    rw [if_neg ha, hw]
    refine ⟨b, rfl, ?_⟩
    rw [Tray.emptied_of_waiting hw]
    exact h

theorem Shows.dispose (h : b.Shows size send t) (hd : t.disposed = false) :
    b.perform .dispose = ((batchOf t.waiting).map send, { b.disarm.cleared with disposed := true }, .done) := by
  have hf := h.disposed.trans hd
  unfold Batcher.perform
  simp only [Batcher.start, Batcher.dispose]
  rw [if_neg (by simp [hf])]
  obtain ⟨buffer, interval, kind, contentType, gate, alarm, disposed⟩ := b
  have hg : gate = {} := h.gate
  subst hg
  cases buffer with
  | none =>
    rw [h.waiting_of_none rfl]
    rfl
  | some slots =>
    obtain ⟨hn, hc, hs⟩ := h.gathers slots rfl
    simp only [Batcher.disarm, FlushGate.enter?, Bool.false_eq_true, ite_false, hs.drain]
    by_cases hw : t.waiting = []
    · rw [hw, List.isEmpty_nil, if_pos rfl]
      rfl
    · rw [List.isEmpty_eq_false_iff.mpr hw, if_neg Bool.false_ne_true, batchOf, if_neg hw, ← h.emission]
      rfl

theorem Shows.dispose_again (h : b.Shows size send t) (hd : t.disposed = true) :
    b.perform .dispose = ([], b, .done) := by
  unfold Batcher.perform
  simp only [Batcher.start, Batcher.dispose]
  rw [if_pos (h.disposed.trans hd), Turn.settle]

theorem Like.dispose (h : b.Like size send t) :
    ∃ b', b.perform .dispose = ((batchOf t.waiting).map send, b', .done) ∧
      b'.Like size send { waiting := [], disposed := true } := by
  by_cases htd : t.disposed = true
  · have hw := h.sound.idle htd
    rw [h.toShows.dispose_again htd, hw]
    refine ⟨b, rfl, ?_⟩
    obtain ⟨waiting, disposed⟩ := t
    subst hw htd
    exact h
  · have hempty : Tray.Sound size (⟨[], true⟩ : Tray α) := by
      refine ⟨?_, fun _ => rfl⟩
      have hr := h.sound.room
      simp only [List.length_nil]
      omega
    refine ⟨_, h.toShows.dispose (by simpa using htd), ?_⟩
    exact ⟨⟨hempty, h.emission, h.gate, rfl, h.disarm.cleared.single, h.disarm.cleared.gathers⟩,
      h.disarm.cleared.armed⟩

theorem Like.perform (h : b.Like size send t) (a : BatchAct α) :
    ∃ b', b.perform a = ((t.perform size a).1.map send, b', (t.perform size a).2.2) ∧
      b'.Like size send (t.perform size a).2.1 := by
  cases a with
  | add x => exact h.enqueue x
  | flush => exact ⟨_, h.flushFrom nofun, h.cleared⟩
  | ring => exact h.ring
  | late => exact ⟨_, h.flushFrom nofun, h.cleared⟩
  | dispose => exact h.dispose

/-! ## Runs -/

theorem make_like {settings : BatchSettings} {kind : ItemKind} {contentType : Option String}
    (hb : make settings kind contentType = .ok b) :
    b.Like settings.maxSize.toNat (Emission.ofItems kind contentType) {} := by
  have hsound (h : 1 ≤ settings.maxSize.toNat) : Tray.Sound settings.maxSize.toNat ({} : Tray α) := ⟨h, fun _ => rfl⟩
  unfold make at hb
  split at hb
  · cases hb
  · simp only at hb
    split at hb
    · next hone =>
      cases hb
      rw [hone]
      exact ⟨⟨⟨Nat.one_pos, fun _ => rfl⟩, rfl, rfl, rfl, fun _ => rfl, nofun⟩, fun hne => absurd rfl hne⟩
    · unfold SlotBuffer.make at hb
      split at hb
      · cases hb
      · next hsize =>
        have hn : 2 ≤ settings.maxSize.toNat := by
          rw [UInt64.lt_iff_toNat_lt] at hsize
          exact Nat.not_lt.mp hsize
        cases hb
        refine ⟨⟨⟨by simp; omega, fun _ => rfl⟩, rfl, rfl, rfl, nofun, ?_⟩, fun hne => absurd rfl hne⟩
        intro slots hs
        cases hs
        exact ⟨hn, rfl, SlotBuffer.holds_fresh _⟩

section
variable {settings : BatchSettings} {kind : ItemKind} {contentType : Option String} {acts : List (BatchAct α)}

theorem callsOf_tray (hb : make settings kind contentType = .ok b) (acts : List (BatchAct α)) :
    (callsOf perform b acts).1 =
      (callsOf (Tray.perform settings.maxSize.toNat) {} acts).1.map (.map (Emission.ofItems kind contentType)) ∧
    (callsOf perform b acts).2.Like settings.maxSize.toNat (Emission.ofItems kind contentType)
      (callsOf (Tray.perform settings.maxSize.toNat) {} acts).2 :=
  callsOf_alike (fun _ _ a h => h.perform a) (make_like hb) acts

theorem writable_of_sent {size : Nat} (hw : ∀ x, .add x ∈ acts → (BatchItem.json? x).isSome = true)
    {items : List α} (hi : items ∈ sentIn (callsOf (Tray.perform size) {} acts).1) :
    ∀ x ∈ items, (BatchItem.json? x).isSome = true := by
  intro x hx
  apply hw
  apply @add_mem_of_taken _ _ _ (Tray.perform size) {}
  have hc := Tray.conserves size {} acts
  rw [List.nil_append] at hc
  rw [hc]
  exact List.mem_append_left _ (List.mem_flatten_of_mem hi hx)

/-- Whatever is done with a batcher, by however many: the items that it took are the entries of its envelopes and then
what waits, in the order in which it took them. It sends batches only, none of which is empty or too large, loses
nothing, takes every item until somebody disposes of it and none after that, and a flush tells how many items it
sent. -/
theorem items_conserved (hb : make settings kind contentType = .ok b)
    (hw : ∀ x, .add x ∈ acts → (BatchItem.json? x).isSome = true) {calls : List (BatchCall α Emission)}
    {b' : Batcher α} (hc : callsOf perform b acts = (calls, b')) :
    (takenIn calls).map BatchItem.json? = (entriesOf (sentIn calls)).map some ++ b'.waiting.map BatchItem.json? ∧
    (∀ e ∈ envelopesOf (sentIn calls), e.IsBatch kind settings.maxSize.toNat) ∧
    (∀ ledger, (sentIn calls).foldl Emission.account ledger = ledger) ∧
    (∀ before c after x, calls = before ++ c :: after → c.act = .add x →
      c.reply = if before.any (·.act.disposes) then .disposed else .taken true) ∧
    (∀ c ∈ calls, c.act = .flush → c.reply = .count (entriesOf c.out).length) ∧
    (acts.any BatchAct.disposes = true → b'.waiting = []) ∧ b'.pending = b'.waiting.length := by
  obtain ⟨hcalls, hlike⟩ := callsOf_tray hb acts
  rw [hc] at hcalls hlike
  simp only at hcalls hlike
  -- the batcher answers as the tray does, so each clause is one about the calls of the tray
  have hsound := (make_like hb).sound
  have hsent : sentIn calls = (sentIn (callsOf (Tray.perform settings.maxSize.toNat) {} acts).1).map
      (Emission.ofItems kind contentType) := by
    rw [hcalls, sentIn_map]
  have hwrite : ∀ items ∈ sentIn (callsOf (Tray.perform settings.maxSize.toNat) {} acts).1, ∀ x ∈ items,
      (BatchItem.json? x).isSome = true := fun items hi => writable_of_sent hw hi
  refine ⟨?_, ?_, ?_, ?_, ?_, ?_, ?_⟩
  · rw [hsent, entriesOf_ofItems kind contentType hwrite, hcalls, takenIn_map, hlike.waiting, ← List.map_append,
      ← Tray.conserves, List.nil_append]
  · intro e he
    rw [hsent, envelopesOf_ofItems kind contentType hwrite] at he
    obtain ⟨items, hi, rfl⟩ := List.mem_map.mp he
    exact batchEnvelope_isBatch kind contentType (hwrite items hi) (UInt64.toNat_lt _) (hsound.length_batches hi)
  · intro ledger
    rw [hsent]
    exact account_ofItems kind contentType hwrite ledger
  · intro before c after x hsplit hx
    rw [hcalls] at hsplit
    obtain ⟨before, rest, ht, rfl, hrest⟩ := List.map_eq_append_iff.mp hsplit
    obtain ⟨c, after, rfl, rfl, -⟩ := List.map_eq_cons_iff.mp hrest
    have hr := Tray.run_add settings.maxSize.toNat {} ht hx
    rw [List.any_map]
    exact hr
  · intro c hm hf
    rw [hcalls] at hm
    obtain ⟨c, ht, rfl⟩ := List.mem_map.mp hm
    have hwc : ∀ items ∈ c.out, ∀ x ∈ items, (BatchItem.json? x).isSome = true :=
      fun items hi => hwrite items (List.mem_flatMap.mpr ⟨c, ht, hi⟩)
    have he := congrArg List.length (entriesOf_ofItems kind contentType hwc)
    rw [List.length_map, List.length_map] at he
    simp only [BatchCall.map, he]
    exact Tray.run_flush settings.maxSize.toNat {} ht hf
  · intro hd
    rw [hlike.waiting]
    apply (hsound.run acts).idle
    rw [Tray.run_disposed, hd]
    rfl
  · rw [hlike.pending, hlike.waiting]

end

def pair : Batcher (Option Json) :=
  { buffer := some (.fresh 2), interval := .ofMillis 100, kind := .span, contentType := none }

/-- A batch goes out for each reason there is, and an item comes too late. -/
def pairActs : List (BatchAct (Option Json)) :=
  [.add (some (.str "a")), .add (some (.str "b")), .add (some (.str "c")), .late, .add (some (.str "d")), .ring,
    .add (some (.str "e")), .flush, .add (some (.str "f")), .dispose, .add (some (.str "g")), .flush]

theorem items_conserved_pair :
    make ⟨2, .ofMillis 100⟩ .span none = .ok pair ∧
    (∀ x, .add x ∈ pairActs → (BatchItem.json? x).isSome = true) ∧
    ∃ calls b', callsOf perform pair pairActs = (calls, b') ∧
      calls.map (fun c => (c.out.length, c.reply)) =
        [(0, .taken true), (1, .taken true), (0, .taken true), (1, .done), (0, .taken true), (1, .done), (0, .taken true),
          (1, .count 1), (0, .taken true), (1, .done), (0, .disposed), (0, .count 0)] ∧
      (takenIn calls).map BatchItem.json? = (entriesOf (sentIn calls)).map some ++ b'.waiting.map BatchItem.json? ∧
      (∀ e ∈ envelopesOf (sentIn calls), e.IsBatch .span 2) ∧ b'.waiting = [] := by
  have hb : make ⟨2, .ofMillis 100⟩ .span none = .ok pair := by rfl
  have hw : ∀ x, .add x ∈ pairActs → (BatchItem.json? x).isSome = true := by
    intro x hx
    simp only [pairActs, List.mem_cons, BatchAct.add.injEq, reduceCtorEq, List.not_mem_nil, or_false, false_or] at hx
    rcases hx with rfl | rfl | rfl | rfl | rfl | rfl | rfl <;> rfl
  obtain ⟨hc, hbatch, -, -, -, hd, -⟩ := items_conserved hb hw rfl
  exact ⟨hb, hw, _, _, rfl, by decide +kernel, hc, hbatch, hd rfl⟩

end Batcher

end Courier

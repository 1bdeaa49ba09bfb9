import Courier.Proofs.Wire

/-!
# Out and back

An envelope is written piece by piece, and all pieces get there that there is room for. What was written whole reads
back as the same header and the same items, each with the length of its payload.
-/

namespace Courier

namespace Envelope

/-! ## Writing -/

/-- Writes these bytes, or as many of them as there is room for, and fails in this way if that is not all. -/
structure Puts (failure : WireError) (m : EStateM WireError Sink Unit) (b : Bytes) : Prop where
  fits : ∀ s : Sink, b.length ≤ s.room → m.run s = .ok () ⟨s.room - b.length, s.held ++ b⟩
  fails : ∀ s : Sink, s.room < b.length → m.run s = .error failure ⟨0, s.held ++ b.take s.room⟩

variable {failure : WireError} {m m' : EStateM WireError Sink Unit} {b c : Bytes}

theorem write_run (failure : WireError) (b : Bytes) (s : Sink) :
    (Sink.write failure b).run s =
      if s.room < b.length then .error failure ⟨s.room - b.length, s.held ++ b.take s.room⟩
      else .ok () ⟨s.room - b.length, s.held ++ b.take s.room⟩ := by
  simp only [Sink.write, EStateM.run_bind, EStateM.run_get, EStateM.run_set]
  split <;> rfl

theorem puts_write (failure : WireError) (b : Bytes) : Puts failure (Sink.write failure b) b where
  fits s h := by rw [write_run, if_neg (Nat.not_lt.mpr h), List.take_of_length_le h]
  fails s h := by rw [write_run, if_pos h, Nat.sub_eq_zero_of_le (Nat.le_of_lt h)]

theorem puts_nothing (failure : WireError) : Puts failure (pure ()) [] where
  fits s _ := by simp
  fails s h := absurd h (Nat.not_lt_zero _)

theorem take_append_of_fits (c : Bytes) {n : Nat} (h : b.length ≤ n) : (b ++ c).take n = b ++ c.take (n - b.length) := by
  rw [List.take_append, List.take_of_length_le h]

theorem Puts.seq (hm : Puts failure m b) (hm' : Puts failure m' c) : Puts failure (do m; m') (b ++ c) where
  fits s h := by
    rw [List.length_append] at h
    rw [EStateM.run_bind, hm.fits s (by omega), List.length_append, ← Nat.sub_sub, ← List.append_assoc]
    exact hm'.fits ⟨s.room - b.length, s.held ++ b⟩ (by simp only; omega)
  fails s h := by
    rw [List.length_append] at h
    rw [EStateM.run_bind]
    by_cases hb : s.room < b.length
    -- the first of the two takes what room there is, and the second one is not begun
    · rw [hm.fails s hb, List.take_append_of_le_length (Nat.le_of_lt hb)]
    · have hb := Nat.le_of_not_lt hb
      rw [hm.fits s hb, take_append_of_fits c hb, ← List.append_assoc]
      exact hm'.fails ⟨s.room - b.length, s.held ++ b⟩ (by simp only; omega)

theorem puts_writeItem (i : Item) : Puts sinkFull (writeItem i) i.bytes := by
  have hp := (puts_write sinkFull i.headerLine).seq <| (puts_write sinkFull [Bytes.newline]).seq <|
    (puts_write sinkFull i.payload.bytes).seq (puts_write sinkFull [Bytes.newline])
  simpa [writeItem, Item.bytes] using hp

theorem puts_writeItems (items : List Item) : Puts sinkFull (writeItems items) (items.flatMap Item.bytes) := by
  induction items with
  | nil => exact puts_nothing _
  | cons i items ih => exact (puts_writeItem i).seq ih

/-- A sink holds what it has room for, and what it has no room for tells how the write fails. -/
theorem writeTo_eq (e : Envelope) (room : Nat) :
    e.writeTo room =
      (e.toBytes.take room,
        if e.toBytes.length ≤ room then .ok ()
        else if room < e.headerLine.length then .error .json
        else .error sinkFull) := by
  have hhead := puts_write .json e.headerLine
  have hrest := (puts_write sinkFull [Bytes.newline]).seq (puts_writeItems e.items)
  have hwire : e.toBytes = e.headerLine ++ ([Bytes.newline] ++ e.items.flatMap Item.bytes) := rfl
  -- the header fails in another way than the rest, so the two are put together by hand
  generalize [Bytes.newline] ++ e.items.flatMap Item.bytes = rest at hrest hwire
  rw [writeTo, write, EStateM.run_bind, hwire, List.length_append]
  by_cases hh : room < e.headerLine.length
  · rw [hhead.fails _ hh, if_neg (by omega), if_pos hh, List.take_append_of_le_length (Nat.le_of_lt hh)]
    rfl
  · have hh := Nat.le_of_not_lt hh
    rw [hhead.fits ⟨room, []⟩ hh, take_append_of_fits rest hh]
    by_cases hr : rest.length ≤ room - e.headerLine.length
    · simp only [hrest.fits ⟨room - e.headerLine.length, [] ++ e.headerLine⟩ hr]
      rw [if_pos (by omega), List.take_of_length_le hr]
      rfl
    · simp only [hrest.fails ⟨room - e.headerLine.length, [] ++ e.headerLine⟩ (Nat.lt_of_not_le hr)]
      rw [if_neg (by omega), if_neg (by omega)]
      rfl

end Envelope

/-! ## Reading back -/

/-- What an item is read back as: its own header, with the length in it, and the bytes of its payload. -/
structure Item.Restored (i j : Item) : Prop where
  header : ∃ n : UInt64, n.toNat = i.payload.bytes.length ∧ j.header = i.header.set "length" (.ofNat n)
  payload : j.payload = .raw i.payload.bytes
  kind : j.kind = i.kind
  count : j.count = i.count

namespace Item

variable {i : Item}

theorem wireForm_kind (i : Item) : i.wireForm.kind = i.kind := by
  rw [kind, kind, show i.wireForm.header = i.sentHeader from rfl, sentHeader_get? i (by decide)]

theorem wireForm_count (i : Item) : i.wireForm.count = i.count := by
  rw [count, count, show i.wireForm.header = i.sentHeader from rfl, sentHeader_get? i (by decide)]

theorem wireForm_category (i : Item) : i.wireForm.category = i.category := by
  rw [category, category, wireForm_kind]

theorem wireForm_isTelemetry (i : Item) : i.wireForm.isTelemetry = i.isTelemetry := by
  rw [isTelemetry, isTelemetry, wireForm_kind]

theorem wireForm_bytes (i : Item) : i.wireForm.bytes = i.bytes := by
  have hh : i.wireForm.sentHeader = i.sentHeader := Object.set_set ..
  rw [bytes, bytes, headerLine, headerLine, hh]
  rfl

theorem Sized.restored (hi : i.Sized) : i.Restored i.wireForm where
  header := ⟨i.payload.bytes.length.toUInt64, by simpa using Nat.mod_eq_of_lt hi.payload, rfl⟩
  payload := rfl
  kind := wireForm_kind i
  count := wireForm_count i

end Item

namespace Envelope

variable {e : Envelope}

theorem wireForm_telemetry (e : Envelope) : e.wireForm.telemetry = e.telemetry.map Item.wireForm := by
  rw [telemetry, telemetry, wireForm, List.filter_map]
  congr 2
  exact funext Item.wireForm_isTelemetry

theorem wireForm_categories (e : Envelope) : e.wireForm.categories = e.categories := by
  simp only [categories, wireForm_telemetry, List.any_map, Function.comp_def, Item.wireForm_category]

theorem wireForm_counts (e : Envelope) : e.wireForm.telemetry.map Item.count = e.telemetry.map Item.count := by
  simp only [wireForm_telemetry, List.map_map, Function.comp_def, Item.wireForm_count]

theorem wireForm_telemetryCount (e : Envelope) : e.wireForm.telemetryCount = e.telemetryCount := by
  funext s
  rw [telemetryCount, telemetryCount, wireForm_counts]

theorem wireForm_toBytes (e : Envelope) : e.wireForm.toBytes = e.toBytes := by
  simp only [toBytes, wireForm, headerLine, List.flatMap_map, Item.wireForm_bytes]

/-- Whatever its payloads are: an envelope without doubles in its headers, which are not nested too deeply, is written
and read back with the same header and the same items in their order, each with the length of its payload. It counts
as the same, and is written in the same way again. -/
theorem reads_back (he : e.Plain) :
    (∀ room, e.toBytes.length ≤ room → e.writeTo room = (e.toBytes, .ok ())) ∧
    ∃ f, ofBytes e.toBytes = .ok f ∧ f.header = e.header ∧ List.Forall₂ Item.Restored e.items f.items ∧
      f.eventId? = e.eventId? ∧ f.categories = e.categories ∧ f.telemetryCount = e.telemetryCount ∧
      f.items.map Item.count = e.items.map Item.count ∧ f.toBytes = e.toBytes := by
  refine ⟨fun room hr => ?_, e.wireForm, ofBytes_toBytes_plain he, rfl, ?_, rfl, wireForm_categories e,
    wireForm_telemetryCount e, ?_, wireForm_toBytes e⟩
  · rw [writeTo_eq, if_pos hr, List.take_of_length_le hr]
  · rw [wireForm, List.forall₂_map_right_iff, List.forall₂_same]
    exact fun i hi => (he.items i hi).sized.restored
  · simp only [wireForm, List.map_map, Function.comp_def, Item.wireForm_count]

/-- An item with a wrong length, and one whose payload looks like another item. -/
def deceptive : Envelope where
  header := [("event_id", .str "a\nb")]
  items :=
    [⟨[("item_count", .ofNat 3), ("length", .ofNat 99), ("type", .str "log")], .json (.arr [])⟩,
      ⟨[("type", .str "attachment")], .raw (Bytes.ofString "\n\x7b\"type\":\"event\"\x7d\n")⟩]

theorem reads_back_deceptive :
    deceptive.Plain ∧
    (∀ room, deceptive.toBytes.length ≤ room → deceptive.writeTo room = (deceptive.toBytes, .ok ())) ∧
    ∃ f, ofBytes deceptive.toBytes = .ok f ∧ f.header = deceptive.header ∧
      List.Forall₂ Item.Restored deceptive.items f.items ∧ f.eventId? = deceptive.eventId? ∧
      f.categories = deceptive.categories ∧ f.telemetryCount = deceptive.telemetryCount ∧
      f.items.map Item.count = deceptive.items.map Item.count ∧ f.toBytes = deceptive.toBytes := by
  have hp : deceptive.Plain := by decide +kernel
  exact ⟨hp, reads_back hp⟩

end Envelope

end Courier

import Courier.Proofs.Json.Cut
import Courier.Proofs.RoundTrip

/-!
# Cut short

A write that has no room for all of an envelope leaves the first bytes of it. They read as the envelope with some of
its items from the first one on, or not at all: no item comes out of them that was not there.
-/

namespace Courier

/-! ## Parts of a line -/

namespace Bytes

variable {b h rest : Bytes}

theorem cut_cases (hb : b <+: h ++ newline :: rest) : b <+: h ∨ ∃ c, b = h ++ newline :: c ∧ c <+: rest := by
  rcases List.prefix_or_prefix_of_prefix hb (List.prefix_append h _) with hp | ⟨c, rfl⟩
  · exact .inl hp
  · have hc := (List.prefix_append_right_inj h).mp hb
    obtain rfl | ⟨d, rfl, hd⟩ := List.prefix_cons_iff.mp hc
    · exact .inl (by rw [List.append_nil])
    · exact .inr ⟨d, rfl, hd⟩

theorem line_cut (hn : newline ∉ h) (hb : b <+: h ++ newline :: rest) :
    (b <+: h ∧ b ≠ h ∧ b.line = b) ∨ (b.line = h ∧ b.afterLine <+: rest) := by
  obtain hp | ⟨c, rfl, hc⟩ := cut_cases hb
  · have hnb : newline ∉ b := fun hm => hn (hp.subset hm)
    by_cases he : b = h
    · exact .inr ⟨he ▸ line_of_notMem hnb, afterLine_of_notMem hnb ▸ List.nil_prefix⟩
    · exact .inl ⟨hp, he, line_of_notMem hnb⟩
  · exact .inr ⟨line_append hn c, (afterLine_append hn c).symm ▸ hc⟩

theorem take_cut (hb : b <+: h ++ newline :: rest) (hl : h.length ≤ b.length) :
    b.take h.length = h ∧ dropNewline (b.drop h.length) <+: rest := by
  obtain hp | ⟨c, rfl, hc⟩ := cut_cases hb
  · obtain rfl := hp.eq_of_length_le hl
    rw [List.take_length, List.drop_length]
    exact ⟨rfl, List.nil_prefix⟩
  · rw [List.take_left, List.drop_left]
    exact ⟨rfl, hc⟩

end Bytes

/-! ## Headers and items -/

namespace Json

theorem ofBytes?_cut {o : Object} {b : Bytes} (hb : b <+: Bytes.ofString (obj o).text)
    (hn : b ≠ Bytes.ofString (obj o).text) : ofBytes? b = none := by
  rw [ofBytes?, Option.bind_eq_none_iff]
  intro s hs
  have hb' := Bytes.toString?_eq_some hs
  subst hb'
  have hp := Bytes.prefix_of_ofString hb
  rw [text, String.toList_ofList] at hp
  refine ofChars?_render_cut hp fun h => hn ?_
  rw [text, ← h, String.ofList_toList]

end Json

variable {n : Nat} {b rest : Bytes}

theorem Envelope.readHeader_cut {o : Object} (hb : b <+: Bytes.ofString (Json.obj o).text)
    (hn : b ≠ Bytes.ofString (Json.obj o).text) : readHeader n b = .error (.header n) := by
  rw [readHeader, Json.ofBytes?_cut hb hn]

namespace Item

variable {i j : Item} {after : Bytes}

theorem readPayload_cut (hi : i.Sized) (hb : b <+: i.payload.bytes ++ Bytes.newline :: rest) {payload : Bytes}
    (h : Envelope.readPayload i.sentHeader b = .ok (payload, after)) : payload = i.payload.bytes ∧ after <+: rest := by
  have hl : i.payload.bytes.length.toUInt64.toNat = i.payload.bytes.length := by
    simpa using Nat.mod_eq_of_lt hi.payload
  have hn : (Json.ofNat i.payload.bytes.length.toUInt64).natural? = some i.payload.bytes.length.toUInt64 := rfl
  simp only [Envelope.readPayload, sentHeader, Object.get?_set_self, hn, hl] at h
  split at h
  -- a payload that is shorter than its length is told as such
  · cases h
  · next hs =>
    obtain ⟨ht, hd⟩ := Bytes.take_cut hb (Nat.le_of_not_lt hs)
    cases h
    exact ⟨ht, hd⟩

theorem readItem_cut (hi : i.Plain) (hb : b <+: i.payload.bytes ++ Bytes.newline :: rest)
    (h : Envelope.readItem n i.headerLine b = .ok (j, after)) : j = i.wireForm ∧ after <+: rest := by
  unfold Envelope.readItem at h
  rw [hi.readHeader] at h
  simp only at h
  split at h
  · cases h
  · split at h
    · cases h
    · next hp =>
      cases h
      obtain ⟨rfl, ha⟩ := readPayload_cut hi.sized hb hp
      exact ⟨rfl, ha⟩

end Item

/-! ## Envelopes -/

namespace Envelope

theorem readItems_cut {items found : List Item} (hi : ∀ i ∈ items, i.Plain) (hb : b <+: items.flatMap Item.bytes)
    (h : readItems n b = .ok found) : found <+: items.map Item.wireForm := by
  induction items generalizing n b found with
  | nil =>
    rw [List.flatMap_nil, List.prefix_nil] at hb
    subst hb
    rw [readItems] at h
    cases h
    exact List.nil_prefix
  | cons i items ih =>
    rw [List.flatMap_cons, Item.bytes_append] at hb
    by_cases he : b = []
    · subst he
      rw [readItems] at h
      cases h
      exact List.nil_prefix
    rcases Bytes.line_cut (Item.newline_notMem_headerLine i) hb with ⟨hp, hne, hl⟩ | ⟨hl, ha⟩
    · rw [readItems_of_line hl he, readItem, readHeader_cut hp hne] at h
      cases h
    · rw [readItems_of_line hl (Item.headerLine_ne_nil i)] at h
      split at h
      · cases h
      · next hj =>
        obtain ⟨rfl, hr⟩ := Item.readItem_cut (hi i (by simp)) ha hj
        split at h
        · cases h
        · next hjs =>
          cases h
          rw [List.map_cons, List.cons_prefix_cons]
          exact ⟨rfl, ih (fun i h => hi i (List.mem_cons_of_mem _ h)) hr hjs⟩

variable {e f : Envelope}

theorem ofBytes_cut (he : e.Plain) (hb : b <+: e.toBytes) (h : ofBytes b = .ok f) :
    f.header = e.header ∧ f.items <+: e.wireForm.items := by
  unfold ofBytes at h
  split at h
  · cases h
  rcases Bytes.line_cut (Json.newline_notMem_text (.obj e.header)) hb with ⟨hp, hne, hl⟩ | ⟨hl, ha⟩
  · rw [hl, readHeader_cut hp hne] at h
    cases h
  · rw [hl, readHeader_exact he.ordered he.exact he.depth] at h
    simp only at h
    split at h
    · cases h
    · next hjs =>
      cases h
      exact ⟨rfl, readItems_cut he.items ha hjs⟩

/-- The envelope with the first of its items only. -/
def upTo (e : Envelope) (k : Nat) : Envelope := ⟨e.header, e.items.take k⟩

/-- A cut between two items leaves all items before it. -/
theorem upTo_cut (he : e.Plain) (k : Nat) :
    (e.upTo k).toBytes <+: e.toBytes ∧ ofBytes (e.upTo k).toBytes = .ok (e.upTo k).wireForm := by
  refine ⟨?_, ofBytes_toBytes_plain ?_⟩
  · have hi : (e.upTo k).items.flatMap Item.bytes <+: e.items.flatMap Item.bytes := (List.take_prefix k _).flatMap _
    rw [toBytes, toBytes, show (e.upTo k).headerLine = e.headerLine from rfl, List.prefix_append_right_inj,
      List.cons_prefix_cons]
    exact ⟨rfl, hi⟩
  · exact ⟨he.ordered, he.exact, he.depth, fun i hi => he.items i (List.mem_of_mem_take hi)⟩

/-- What gets into a sink is the beginning of the envelope. Of what is read of a beginning nothing is changed, and
where it ends between two items nothing before it is missing. -/
theorem partial_write (he : e.Plain) :
    (∀ room, (e.writeTo room).1 = e.toBytes.take room ∧ ((e.writeTo room).2 = .ok () ↔ e.toBytes.length ≤ room)) ∧
    (∀ b f, b <+: e.toBytes → ofBytes b = .ok f → f.header = e.header ∧ f.items <+: e.wireForm.items) ∧
    ∀ k, (e.upTo k).toBytes <+: e.toBytes ∧ ofBytes (e.upTo k).toBytes = .ok (e.upTo k).wireForm := by
  refine ⟨?_, ?_, upTo_cut he⟩
  · intro room
    rw [writeTo_eq]
    refine ⟨rfl, ?_⟩
    by_cases hr : e.toBytes.length ≤ room
    · simp [hr]
    · simp only [hr, if_false, iff_false]
      split <;> simp
  · intro b f hb h
    exact ofBytes_cut he hb h

theorem partial_write_deceptive :
    deceptive.Plain ∧
    (∀ room, (deceptive.writeTo room).1 = deceptive.toBytes.take room ∧
      ((deceptive.writeTo room).2 = .ok () ↔ deceptive.toBytes.length ≤ room)) ∧
    ∃ b f, b <+: deceptive.toBytes ∧ ofBytes b = .ok f ∧ f.items.length = 1 ∧
      f.header = deceptive.header ∧ f.items <+: deceptive.wireForm.items := by
  have hp : deceptive.Plain := by decide +kernel
  obtain ⟨hw, hr, hu⟩ := partial_write hp
  obtain ⟨hb, hf⟩ := hu 1
  exact ⟨hp, hw, _, _, hb, hf, rfl, hr _ _ hb hf⟩

end Envelope

end Courier

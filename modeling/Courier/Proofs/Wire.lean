import Courier.Envelope.Wire
import Courier.Proofs.Json.Read
import Courier.Proofs.Lines
import Mathlib.Data.List.Forall2

/-!
# Envelopes read back

The wire form of an envelope is read as the same headers, where they hold no doubles, and as the bytes of the
payloads. With doubles it is read as well, and what is read agrees with the envelope in everything that counts.
-/

namespace Courier

/-! ## No newlines -/

theorem newline_notMem_numeric {cs : List Char} (h : Numeric cs) : '\n' ∉ cs :=
  fun hc => absurd (h.chars _ hc) (by decide)

theorem newline_notMem_number (n : Number) : '\n' ∉ n.render := by
  cases n with
  | nat n => simpa [Number.render] using newline_notMem_numeric (numeric_toDigits n.toNat)
  | negSucc k => simpa [Number.render] using newline_notMem_numeric (numeric_toDigits (k.val + 1))
  | float x =>
    rw [Number.render]
    cases hx : x.isFinite with
    | true => exact newline_notMem_numeric (Float.json_numeric hx).1
    | false =>
      rw [Float.json_infinite hx]
      decide

theorem newline_notMem_escape (c : Char) : '\n' ∉ Json.escape c := by
  have hd : ∀ n < 16, Hex.digit n ≠ '\n' := by decide
  unfold Json.escape
  split
  · decide
  split
  · decide
  split
  · decide
  split
  · decide
  split
  · decide
  split
  · decide
  split
  · decide
  split
  · next h =>
    have h₁ := hd (c.toNat / 16) (by omega)
    have h₂ := hd (c.toNat % 16) (by omega)
    simp [Ne.symm h₁, Ne.symm h₂]
  · next h _ _ _ => simpa using Ne.symm h

theorem newline_notMem_quote (s : String) : '\n' ∉ Json.quote s := by
  simp only [Json.quote, List.mem_cons, List.mem_append, List.mem_flatMap, not_or]
  refine ⟨by decide, ?_, by decide, by simp⟩
  rintro ⟨c, -, hc⟩
  exact newline_notMem_escape c hc

namespace Json

mutual

theorem newline_notMem_render : ∀ v : Json, '\n' ∉ v.render
  | null => by decide
  | bool true => by decide
  | bool false => by decide
  | num n => newline_notMem_number n
  | str s => newline_notMem_quote s
  | arr [] => by decide
  | arr (v :: vs) => by
    simp [render, newline_notMem_render v, newline_notMem_renderItems vs]
  | obj [] => by decide
  | obj ((k, v) :: ms) => by
    simp [render, newline_notMem_quote k, newline_notMem_render v, newline_notMem_renderMembers ms]

theorem newline_notMem_renderItems : ∀ vs : List Json, '\n' ∉ renderItems vs
  | [] => by simp [renderItems]
  | v :: vs => by simp [renderItems, newline_notMem_render v, newline_notMem_renderItems vs]

theorem newline_notMem_renderMembers : ∀ ms : List (String × Json), '\n' ∉ renderMembers ms
  | [] => by simp [renderMembers]
  | (k, v) :: ms => by
    simp [renderMembers, newline_notMem_quote k, newline_notMem_render v, newline_notMem_renderMembers ms]

end

theorem newline_notMem_text (v : Json) : Bytes.newline ∉ Bytes.ofString v.text :=
  Bytes.newline_notMem_ofString (by rw [text, String.toList_ofList]; exact newline_notMem_render v)

theorem text_obj_ne_nil (o : Object) : Bytes.ofString (obj o).text ≠ [] := by
  obtain ⟨inner, hr⟩ := render_obj o
  rw [Bytes.ofString_eq, text, String.toList_ofList, hr, List.flatMap_cons]
  exact fun h => String.utf8EncodeChar_ne_nil (List.append_eq_nil_iff.mp h).1

theorem ofBytes?_text (v : Json) : ofBytes? (Bytes.ofString v.text) = ofString? v.text := by
  rw [ofBytes?, Bytes.toString?_ofString, Option.bind_some]

end Json

/-! ## Headers -/

namespace Envelope

theorem readHeader_exact {o : Object} (ho : (Json.obj o).Ordered) (he : (Json.obj o).Exact)
    (hd : (Json.obj o).depth ≤ Document.nestingLimit) (n : Nat) :
    readHeader n (Bytes.ofString (Json.obj o).text) = .ok o := by
  rw [readHeader, Json.ofBytes?_text, Json.ofString?_text_of_exact ho he hd]

theorem readHeader_agrees {o p : Object} (ho : o.Sorted) {n : Nat}
    (h : readHeader n (Bytes.ofString (Json.obj o).text) = .ok p) : o.Agrees p := by
  rw [readHeader, Json.ofBytes?_text] at h
  split at h
  · cases h
  · next q hq =>
    cases h
    obtain ⟨q, hp, ha⟩ := Json.ofString?_text_agrees ho hq
    cases hp
    exact ha
  · cases h

theorem readHeader_formed {o : Object} (ho : o.Sorted) (hd : (Json.obj o).depth ≤ Document.nestingLimit) (n : Nat) :
    ∃ p, readHeader n (Bytes.ofString (Json.obj o).text) = .ok p ∧ o.Agrees p := by
  obtain ⟨w, hw⟩ := Json.ofString?_text_isSome hd
  obtain ⟨p, rfl, ha⟩ := Json.ofString?_text_agrees ho hw
  exact ⟨p, by rw [readHeader, Json.ofBytes?_text, hw], ha⟩

theorem readItems_of_line {b h : Bytes} (hl : b.line = h) (hh : h ≠ []) (n : Nat) :
    readItems n b =
      match readItem (n + 1) h b.afterLine with
      | .error e => .error e
      | .ok (item, after) =>
        match readItems (n + 2) after with
        | .error e => .error e
        | .ok items => .ok (item :: items) := by
  subst hl
  cases b with
  | nil => exact absurd rfl hh
  | cons c r =>
    rw [readItems, if_neg (by rwa [List.isEmpty_iff])]
    split
    · next h => rw [h]
    · next after h => cases hr : readItems (n + 2) after <;> simp only [h, hr]

end Envelope

/-! ## Items -/

namespace Item

/-- What the wire form of an item is read as: its header with the length, and the bytes of its payload. -/
def wireForm (i : Item) : Item := ⟨i.sentHeader, .raw i.payload.bytes⟩

/-- An item that can stand in memory. -/
structure Sized (i : Item) : Prop where
  header : i.header.Sorted
  payload : i.payload.bytes.length < 2 ^ 64

/-- An item that is read back as it is. -/
structure Plain (i : Item) : Prop where
  ordered : (Json.obj i.header).Ordered
  exact : (Json.obj i.header).Exact
  depth : (Json.obj i.header).depth ≤ Document.nestingLimit
  typed : ((i.header.get? "type").bind Json.string?).isSome = true
  payload : i.payload.bytes.length < 2 ^ 64

instance (i : Item) : Decidable i.Sized :=
  decidable_of_iff ((i.header.map Prod.fst).Pairwise (· < ·) ∧ i.payload.bytes.length < 2 ^ 64)
    ⟨fun h => ⟨h.1, h.2⟩, fun h => ⟨h.1, h.2⟩⟩

instance (i : Item) : Decidable i.Plain :=
  decidable_of_iff ((Json.obj i.header).Ordered ∧ (Json.obj i.header).Exact ∧
      (Json.obj i.header).depth ≤ Document.nestingLimit ∧
      ((i.header.get? "type").bind Json.string?).isSome = true ∧ i.payload.bytes.length < 2 ^ 64)
    ⟨fun ⟨ho, he, hd, ht, hp⟩ => ⟨ho, he, hd, ht, hp⟩, fun ⟨ho, he, hd, ht, hp⟩ => ⟨ho, he, hd, ht, hp⟩⟩

/-- An item that is read back at all. -/
structure Formed (i : Item) : Prop extends i.Sized where
  depth : (Json.obj i.header).depth ≤ Document.nestingLimit
  typed : ((i.header.get? "type").bind Json.string?).isSome = true

instance (i : Item) : Decidable i.Formed :=
  decidable_of_iff (i.Sized ∧ (Json.obj i.header).depth ≤ Document.nestingLimit ∧
      ((i.header.get? "type").bind Json.string?).isSome = true)
    ⟨fun ⟨hs, hd, ht⟩ => ⟨hs, hd, ht⟩, fun ⟨hs, hd, ht⟩ => ⟨hs, hd, ht⟩⟩

/-- What an item is read as, if it is read: a header that agrees with its own, and the bytes of its payload. -/
structure Echo (i j : Item) : Prop where
  header : i.sentHeader.Agrees j.header
  payload : j.payload = .raw i.payload.bytes

variable {i j : Item} {n : Nat} {rest : Bytes}

theorem Plain.sized (hi : i.Plain) : i.Sized := ⟨hi.ordered.1, hi.payload⟩

theorem sentHeader_get? (i : Item) {key : String} (hk : key ≠ "length") : i.sentHeader.get? key = i.header.get? key :=
  Object.get?_set_ne _ _ hk

theorem Sized.sentHeader (hi : i.Sized) : i.sentHeader.Sorted := hi.header.set _ _

theorem depth_sentHeader (hd : (Json.obj i.header).depth ≤ Document.nestingLimit) :
    (Json.obj i.sentHeader).depth ≤ Document.nestingLimit := by
  have hs := Json.memberDepth_set (.ofNat i.payload.bytes.length.toUInt64) "length" i.header
  simp only [Json.depth, Document.nestingLimit, Json.ofNat] at hd hs ⊢
  exact Nat.le_trans (Nat.succ_le_succ hs) (by omega)

theorem typed_sentHeader (ht : ((i.header.get? "type").bind Json.string?).isSome = true) :
    ((i.sentHeader.get? "type").bind Json.string?).isSome = true := by
  rwa [sentHeader_get? i (by decide)]

theorem Plain.readHeader (hi : i.Plain) : Envelope.readHeader n i.headerLine = .ok i.sentHeader :=
  Envelope.readHeader_exact ⟨hi.sized.sentHeader, Json.orderedMembers_set (v := .ofNat _) trivial _ hi.ordered.2⟩
    (Json.exactMembers_set (v := .ofNat _) trivial _ hi.exact) (depth_sentHeader hi.depth) n

theorem readPayload_bytes {p : Object} (hi : i.Sized) (hp : i.sentHeader.Agrees p) :
    Envelope.readPayload p (i.payload.bytes ++ Bytes.newline :: rest) = .ok (i.payload.bytes, rest) := by
  have hn : (p.get? "length").bind Json.natural? = some i.payload.bytes.length.toUInt64 := by
    rw [(hp "length").2, sentHeader, Object.get?_set_self]
    rfl
  obtain ⟨v, hv, hn⟩ := Option.bind_eq_some_iff.mp hn
  have hl : i.payload.bytes.length.toUInt64.toNat = i.payload.bytes.length := by
    simpa using Nat.mod_eq_of_lt hi.payload
  simp only [Envelope.readPayload, hv, hn, hl]
  rw [if_neg (by simp), List.take_left, List.drop_left]
  simp [Bytes.dropNewline]

theorem readItem_plain (hi : i.Plain) :
    Envelope.readItem n i.headerLine (i.payload.bytes ++ Bytes.newline :: rest) = .ok (i.wireForm, rest) := by
  have hp : Envelope.readPayload i.sentHeader (i.payload.bytes ++ Bytes.newline :: rest) =
      .ok (i.payload.bytes, rest) := readPayload_bytes hi.sized fun _ => ⟨rfl, rfl⟩
  simp only [Envelope.readItem, hi.readHeader, hp, Option.isNone_eq_false_iff.mpr (typed_sentHeader hi.typed)]
  rfl

theorem readItem_formed (hi : i.Formed) :
    ∃ j, Envelope.readItem n i.headerLine (i.payload.bytes ++ Bytes.newline :: rest) = .ok (j, rest) := by
  obtain ⟨p, hp, ha⟩ := Envelope.readHeader_formed hi.sentHeader (depth_sentHeader hi.depth) n
  have ht : ((p.get? "type").bind Json.string?).isSome = true := by
    rw [(ha "type").1]
    exact typed_sentHeader hi.typed
  rw [← headerLine] at hp
  simp only [Envelope.readItem, hp, readPayload_bytes hi.toSized ha, Option.isNone_eq_false_iff.mpr ht]
  exact ⟨_, rfl⟩

theorem readItem_echo {after : Bytes} (hi : i.Sized)
    (h : Envelope.readItem n i.headerLine (i.payload.bytes ++ Bytes.newline :: rest) = .ok (j, after)) :
    i.Echo j ∧ after = rest := by
  unfold Envelope.readItem at h
  split at h
  · cases h
  · next p hp =>
    have ha : i.sentHeader.Agrees p := Envelope.readHeader_agrees hi.sentHeader hp
    rw [readPayload_bytes hi ha] at h
    split at h
    · cases h
    · cases h
      exact ⟨⟨ha, rfl⟩, rfl⟩

theorem newline_notMem_headerLine (i : Item) : Bytes.newline ∉ i.headerLine := Json.newline_notMem_text _

theorem headerLine_ne_nil (i : Item) : i.headerLine ≠ [] := Json.text_obj_ne_nil _

theorem bytes_append (i : Item) (rest : Bytes) :
    i.bytes ++ rest = i.headerLine ++ Bytes.newline :: (i.payload.bytes ++ Bytes.newline :: rest) := by
  simp [bytes]

theorem readItems_cons (n : Nat) (i : Item) (rest : Bytes) :
    Envelope.readItems n (i.bytes ++ rest) =
      match Envelope.readItem (n + 1) i.headerLine (i.payload.bytes ++ Bytes.newline :: rest) with
      | .error e => .error e
      | .ok (item, after) =>
        match Envelope.readItems (n + 2) after with
        | .error e => .error e
        | .ok items => .ok (item :: items) := by
  have hn := newline_notMem_headerLine i
  rw [bytes_append, Envelope.readItems_of_line (Bytes.line_append hn _) (headerLine_ne_nil i),
    Bytes.afterLine_append hn]

end Item

namespace Envelope

/-! ## Envelopes -/

/-- What the wire form of an envelope is read as. -/
def wireForm (e : Envelope) : Envelope := ⟨e.header, e.items.map Item.wireForm⟩

structure Sized (e : Envelope) : Prop where
  header : e.header.Sorted
  items : ∀ i ∈ e.items, i.Sized

structure Plain (e : Envelope) : Prop where
  ordered : (Json.obj e.header).Ordered
  exact : (Json.obj e.header).Exact
  depth : (Json.obj e.header).depth ≤ Document.nestingLimit
  items : ∀ i ∈ e.items, i.Plain

instance (e : Envelope) : Decidable e.Sized :=
  decidable_of_iff ((e.header.map Prod.fst).Pairwise (· < ·) ∧ ∀ i ∈ e.items, i.Sized)
    ⟨fun h => ⟨h.1, h.2⟩, fun h => ⟨h.1, h.2⟩⟩

instance (e : Envelope) : Decidable e.Plain :=
  decidable_of_iff ((Json.obj e.header).Ordered ∧ (Json.obj e.header).Exact ∧
      (Json.obj e.header).depth ≤ Document.nestingLimit ∧ ∀ i ∈ e.items, i.Plain)
    ⟨fun ⟨ho, he, hd, hi⟩ => ⟨ho, he, hd, hi⟩, fun ⟨ho, he, hd, hi⟩ => ⟨ho, he, hd, hi⟩⟩

/-- An envelope that is read back at all. -/
structure Formed (e : Envelope) : Prop where
  header : e.header.Sorted
  depth : (Json.obj e.header).depth ≤ Document.nestingLimit
  items : ∀ i ∈ e.items, i.Formed

instance (e : Envelope) : Decidable e.Formed :=
  decidable_of_iff ((e.header.map Prod.fst).Pairwise (· < ·) ∧ (Json.obj e.header).depth ≤ Document.nestingLimit ∧
      ∀ i ∈ e.items, i.Formed)
    ⟨fun ⟨ho, hd, hi⟩ => ⟨ho, hd, hi⟩, fun ⟨ho, hd, hi⟩ => ⟨ho, hd, hi⟩⟩

/-- What an envelope is read as, if it is read. -/
structure Echo (e f : Envelope) : Prop where
  header : e.header.Agrees f.header
  items : List.Forall₂ Item.Echo e.items f.items

theorem Plain.sized {e : Envelope} (he : e.Plain) : e.Sized := ⟨he.ordered.1, fun i hi => (he.items i hi).sized⟩

theorem readItems_plain {items : List Item} (hi : ∀ i ∈ items, i.Plain) (n : Nat) :
    readItems n (items.flatMap Item.bytes) = .ok (items.map Item.wireForm) := by
  induction items generalizing n with
  | nil => rw [List.flatMap_nil, readItems]; rfl
  | cons i items ih =>
    rw [List.flatMap_cons, Item.readItems_cons, Item.readItem_plain (hi i (by simp))]
    simp [ih fun i h => hi i (List.mem_cons_of_mem _ h)]

theorem readItems_formed {items : List Item} (hi : ∀ i ∈ items, i.Formed) (n : Nat) :
    ∃ found, readItems n (items.flatMap Item.bytes) = .ok found := by
  induction items generalizing n with
  | nil => exact ⟨[], by rw [List.flatMap_nil, readItems]⟩
  | cons i items ih =>
    obtain ⟨j, hj⟩ := Item.readItem_formed (hi i (by simp))
    obtain ⟨js, hjs⟩ := ih (fun i h => hi i (List.mem_cons_of_mem _ h)) (n + 2)
    exact ⟨j :: js, by rw [List.flatMap_cons, Item.readItems_cons, hj]; simp only [hjs]⟩

theorem readItems_echo {items found : List Item} (hi : ∀ i ∈ items, i.Sized) {n : Nat}
    (h : readItems n (items.flatMap Item.bytes) = .ok found) : List.Forall₂ Item.Echo items found := by
  induction items generalizing n found with
  | nil =>
    rw [List.flatMap_nil, readItems] at h
    cases h
    exact .nil
  | cons i items ih =>
    rw [List.flatMap_cons, Item.readItems_cons] at h
    split at h
    · cases h
    · next j after hj =>
      obtain ⟨he, rfl⟩ := Item.readItem_echo (hi i (by simp)) hj
      split at h
      · cases h
      · next js hjs =>
        cases h
        exact .cons he (ih (fun i h => hi i (List.mem_cons_of_mem _ h)) hjs)

theorem ofBytes_toBytes (e : Envelope) :
    ofBytes e.toBytes =
      match readHeader 1 e.headerLine with
      | .error er => .error er
      | .ok header =>
        match readItems 1 (e.items.flatMap Item.bytes) with
        | .error er => .error er
        | .ok items => .ok ⟨header, items⟩ := by
  have hn := Json.newline_notMem_text (.obj e.header)
  have hl := Bytes.line_append hn (e.items.flatMap Item.bytes)
  have ha := Bytes.afterLine_append hn (e.items.flatMap Item.bytes)
  rw [← headerLine, ← toBytes] at hl ha
  have hne : e.toBytes.isEmpty = false := by simp [toBytes]
  simp only [ofBytes, hne, hl, ha]
  rfl

theorem ofBytes_toBytes_plain {e : Envelope} (he : e.Plain) : ofBytes e.toBytes = .ok e.wireForm := by
  rw [ofBytes_toBytes, headerLine, readHeader_exact he.ordered he.exact he.depth, readItems_plain he.items]
  rfl

theorem Formed.sized {e : Envelope} (he : e.Formed) : e.Sized := ⟨he.header, fun i hi => (he.items i hi).toSized⟩

theorem ofBytes_toBytes_formed {e : Envelope} (he : e.Formed) : ∃ f, ofBytes e.toBytes = .ok f := by
  obtain ⟨p, hp, -⟩ := readHeader_formed he.header he.depth 1
  obtain ⟨js, hjs⟩ := readItems_formed he.items 1
  rw [← headerLine] at hp
  exact ⟨⟨p, js⟩, by rw [ofBytes_toBytes, hp, hjs]⟩

/-- What is read of an envelope agrees with it. -/
theorem ofBytes_toBytes_echo {e f : Envelope} (he : e.Sized) (h : ofBytes e.toBytes = .ok f) : e.Echo f := by
  rw [ofBytes_toBytes] at h
  split at h
  · cases h
  · next p hp =>
    split at h
    · cases h
    · next js hjs =>
      cases h
      exact ⟨readHeader_agrees he.header hp, readItems_echo he.items hjs⟩

end Envelope

end Courier

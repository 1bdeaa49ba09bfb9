import Courier.Proofs.Wire

/-!
# The grammar of the wire form

What an envelope may look like is told here without a reader: its header on the first line, then blank lines and
items, each of them a header on a line and a payload that is as long as the header tells, or a line where the header
does not tell. The reader accepts this and nothing else.
-/

namespace Courier

/-! ## Lines -/

namespace Bytes

variable {d line rest : Bytes}

/-- The first line of the data without its newline, if it has one, and what comes after it. -/
inductive FirstLine : Bytes → Bytes → Bytes → Prop
  | ended {line : Bytes} (hn : newline ∉ line) (rest : Bytes) : FirstLine (line ++ newline :: rest) line rest
  | last {line : Bytes} (hn : newline ∉ line) : FirstLine line line []

/-- What is left after one newline, if one comes first. -/
inductive PastNewline : Bytes → Bytes → Prop
  | newline (rest : Bytes) : PastNewline (newline :: rest) rest
  | other {rest : Bytes} (hn : rest.head? ≠ some newline) : PastNewline rest rest

theorem newline_notMem_line (d : Bytes) : newline ∉ d.line := by
  intro h
  simpa using List.mem_takeWhile_imp h

theorem firstLine_line (d : Bytes) : d.FirstLine d.line d.afterLine := by
  have hd : d.line ++ d.dropWhile (· != newline) = d := List.takeWhile_append_dropWhile
  have hn := newline_notMem_line d
  unfold afterLine
  cases hr : d.dropWhile (· != newline) with
  | nil =>
    rw [hr, List.append_nil] at hd
    rw [hd] at hn ⊢
    exact .last hn
  | cons c r =>
    have hc : c = newline := by
      have h := List.head_dropWhile_not (· != newline) (l := d) (by simp [hr])
      simpa [hr] using h
    subst hc
    rw [hr] at hd
    have h := FirstLine.ended hn r
    rwa [hd] at h

theorem firstLine_iff : d.FirstLine line rest ↔ line = d.line ∧ rest = d.afterLine := by
  constructor
  · intro h
    cases h with
    | ended hn => exact ⟨(line_append hn rest).symm, (afterLine_append hn rest).symm⟩
    | last hn => exact ⟨(line_of_notMem hn).symm, (afterLine_of_notMem hn).symm⟩
  · rintro ⟨rfl, rfl⟩
    exact firstLine_line d

theorem pastNewline_iff : d.PastNewline rest ↔ rest = d.dropNewline := by
  constructor
  · intro h
    cases h with
    | newline => simp [dropNewline]
    | other hn =>
      cases d with
      | nil => rfl
      | cons c r => simp_all [dropNewline]
  · rintro rfl
    cases d with
    | nil => exact .other (by simp)
    | cons c r =>
      by_cases hc : c = newline
      · subst hc
        simpa [dropNewline] using PastNewline.newline r
      · have h : PastNewline (c :: r) (c :: r) := .other (by simpa using hc)
        simpa [dropNewline, hc] using h

end Bytes

/-! ## Envelopes -/

namespace Envelope

variable {d line rest payload : Bytes} {header : Object} {items : List Item} {n : Nat}

/-- The line is the text of this object. -/
def IsObject (line : Bytes) (o : Object) : Prop := Json.ofBytes? line = some (.obj o)

/-- The data is a payload under this header, and what comes after it. -/
inductive PayloadForm (header : Object) : Bytes → Bytes → Bytes → Prop
  | sized {length : UInt64} {payload after rest : Bytes} (hl : header.get? "length" = some (.ofNat length))
    (hp : payload.length = length.toNat) (ha : after.PastNewline rest) :
    PayloadForm header (payload ++ after) payload rest
  | line {d payload rest : Bytes} (hl : header.get? "length" = none) (hd : d.FirstLine payload rest) :
    PayloadForm header d payload rest

/-- The data is blank lines and items, and these are the items. -/
inductive ItemsForm : Bytes → List Item → Prop
  | nil : ItemsForm [] []
  | blank {d : Bytes} {items : List Item} (hs : ItemsForm d items) : ItemsForm (Bytes.newline :: d) items
  | item {d line after payload rest : Bytes} {header : Object} {kind : String} {items : List Item}
    (hd : d.FirstLine line after) (hn : line ≠ []) (hh : IsObject line header)
    (ht : header.get? "type" = some (.str kind)) (hp : PayloadForm header after payload rest)
    (hs : ItemsForm rest items) : ItemsForm d (⟨header, .raw payload⟩ :: items)

/-- The data is this envelope. -/
structure Form (d : Bytes) (e : Envelope) : Prop where
  nonempty : d ≠ []
  parts : ∃ line rest, d.FirstLine line rest ∧ IsObject line e.header ∧ ItemsForm rest e.items

theorem readHeader_iff : readHeader n line = .ok header ↔ IsObject line header := by
  unfold readHeader IsObject
  split <;> simp_all

theorem natural?_eq_some {v : Json} {m : UInt64} : v.natural? = some m ↔ v = .ofNat m := by
  constructor
  · intro h
    unfold Json.natural? at h
    split at h
    · cases h; rfl
    · cases h
  · rintro rfl
    rfl

theorem readPayload_iff : readPayload header d = .ok (payload, rest) ↔ PayloadForm header d payload rest := by
  constructor
  · intro h
    unfold readPayload at h
    split at h
    · next hl =>
      cases h
      exact .line hl (Bytes.firstLine_line d)
    · next v hl =>
      split at h
      · cases h
      · next m hm =>
        obtain rfl := natural?_eq_some.mp hm
        split at h
        · cases h
        · next hle =>
          cases h
          have hp : (d.take m.toNat).length = m.toNat := by rw [List.length_take]; omega
          have hs := PayloadForm.sized hl hp (Bytes.pastNewline_iff (d := d.drop m.toNat).mpr rfl)
          rwa [List.take_append_drop] at hs
  · intro h
    unfold readPayload
    cases h with
    | @sized m payload after rest hl hp ha =>
      obtain rfl := Bytes.pastNewline_iff.mp ha
      simp only [hl, natural?_eq_some.mpr rfl, ← hp, List.length_append, List.take_left, List.drop_left]
      exact if_neg (by omega)
    | line hl hd =>
      obtain ⟨rfl, rfl⟩ := Bytes.firstLine_iff.mp hd
      simp only [hl]

theorem type_isSome_iff : ((header.get? "type").bind Json.string?).isSome = true ↔
    ∃ kind, header.get? "type" = some (.str kind) := by
  cases header.get? "type" with
  | none => simp
  | some v => cases v <;> simp [Json.string?]

theorem readItem_iff {i : Item} : readItem n line d = .ok (i, rest) ↔
    ∃ header kind payload, IsObject line header ∧ header.get? "type" = some (.str kind) ∧
      PayloadForm header d payload rest ∧ i = ⟨header, .raw payload⟩ := by
  constructor
  · intro h
    unfold readItem at h
    split at h
    · cases h
    · next header hh =>
      split at h
      · cases h
      · next ht =>
        obtain ⟨kind, hk⟩ := type_isSome_iff.mp
          (Option.isSome_iff_ne_none.mpr fun hn => ht (Option.isNone_iff_eq_none.mpr hn))
        split at h
        · cases h
        · next payload after hp =>
          cases h
          exact ⟨header, kind, payload, readHeader_iff.mp hh, hk, readPayload_iff.mp hp, rfl⟩
  · rintro ⟨header, kind, payload, hh, hk, hp, rfl⟩
    have ht : ((header.get? "type").bind Json.string?).isNone = false := by simp [hk, Json.string?]
    simp only [readItem, readHeader_iff.mpr hh, ht, readPayload_iff.mpr hp]
    rfl

theorem readItems_blank (n : Nat) (d : Bytes) : readItems n (Bytes.newline :: d) = readItems (n + 1) d := by
  rw [readItems]
  exact if_pos rfl

theorem itemsForm_of_readItems (h : readItems n d = .ok items) : ItemsForm d items := by
  fun_induction readItems n d generalizing items with
  | case1 => cases h; exact .nil
  | case2 n c r _ hb ih =>
    -- a blank line is its newline
    have hc : c = Bytes.newline := by
      by_contra hc
      simp [Bytes.line, hc] at hb
    subst hc
    exact .blank (ih h)
  | case3 => cases h
  | case4 => cases h
  | case5 n c r _ hb i after hi _ found hf ih =>
    cases h
    obtain ⟨header, kind, payload, hh, hk, hp, rfl⟩ := readItem_iff.mp hi
    exact .item (Bytes.firstLine_line _) (by simpa using hb) hh hk hp (ih hf)

theorem readItems_of_itemsForm (h : ItemsForm d items) (n : Nat) : readItems n d = .ok items := by
  induction h generalizing n with
  | nil => rw [readItems]
  | blank _ ih => rw [readItems_blank, ih]
  | item hd hn hh hk hp _ ih =>
    obtain ⟨rfl, rfl⟩ := Bytes.firstLine_iff.mp hd
    rw [readItems_of_line rfl hn, readItem_iff.mpr ⟨_, _, _, hh, hk, hp, rfl⟩]
    simp only [ih]

theorem ofBytes_iff {e : Envelope} : ofBytes d = .ok e ↔ Form d e := by
  constructor
  · intro h
    unfold ofBytes at h
    split at h
    · cases h
    · next hd =>
      split at h
      · cases h
      · next header hh =>
        split at h
        · cases h
        · next items hi =>
          cases h
          exact ⟨by simpa using hd, _, _, Bytes.firstLine_line d, readHeader_iff.mp hh, itemsForm_of_readItems hi⟩
  · rintro ⟨hd, line, rest, hl, hh, hi⟩
    obtain ⟨rfl, rfl⟩ := Bytes.firstLine_iff.mp hl
    have hd' : d.isEmpty = false := by simpa using hd
    simp only [ofBytes, hd', readHeader_iff.mpr hh, readItems_of_itemsForm hi]
    rfl

end Envelope

end Courier

import Courier.Proofs.Grammar

/-!
# A cursor over the wire form

The wire form is read here by positions. Every slice is checked: one that begins after it ends, or that ends beyond
the data, has no result. There always is a result, and it is what the reader of lines finds.
-/

namespace Courier

namespace Bytes

variable {d first : Bytes} {start next : Nat}

/-! ## Slices -/

def between? (d : Bytes) (start stop : Nat) : Option Bytes :=
  if start ≤ stop ∧ stop ≤ d.length then some ((d.take stop).drop start) else none

theorem between?_length (h : start ≤ d.length) : d.between? start d.length = some (d.drop start) := by
  rw [between?, if_pos ⟨h, Nat.le_refl _⟩, List.take_length]

theorem between?_add {n : Nat} (h : start + n ≤ d.length) :
    d.between? start (start + n) = some ((d.drop start).take n) := by
  rw [between?, if_pos ⟨Nat.le_add_right _ _, h⟩, List.drop_take, Nat.add_sub_cancel_left]

/-! ## Lines -/

/-- The line at this position, and where the next one begins. -/
def lineAt? (d : Bytes) (start : Nat) : Option (Bytes × Nat) :=
  match d.between? start d.length with
  | none => none
  | some rest =>
    match rest.idxOf? newline with
    | some k => (d.between? start (start + k)).map (·, start + (k + 1))
    | none => some (rest, d.length)

theorem idxOf?_newline (d : Bytes) :
    d.idxOf? newline = if d.line.length < d.length then some d.line.length else none := by
  induction d with
  | nil => rfl
  | cons c r ih =>
    by_cases hc : c = newline
    · subst hc
      rfl
    · have hb : (c == newline) = false := by simpa using hc
      have hl : line (c :: r) = c :: line r := by simp [line, hc]
      rw [List.idxOf?_cons, hb, hl, ih]
      split <;> simp_all

theorem line_prefix (d : Bytes) : d.line <+: d := List.takeWhile_prefix _

theorem drop_line (d : Bytes) : d.drop (d.line.length + 1) = d.afterLine := by
  have hd : d.line ++ d.dropWhile (· != newline) = d := List.takeWhile_append_dropWhile
  calc d.drop (d.line.length + 1)
      = (d.drop d.line.length).drop 1 := List.drop_drop.symm
    _ = ((d.line ++ d.dropWhile (· != newline)).drop d.line.length).drop 1 := by rw [hd]
    _ = d.afterLine := by rw [List.drop_left]; rfl

/-- The line at a position is the first one of what is left, and the next one begins within the data. -/
theorem lineAt?_eq (h : start ≤ d.length) :
    ∃ next, d.lineAt? start = some (line (d.drop start), next) ∧ d.drop next = afterLine (d.drop start) ∧
      start ≤ next ∧ next ≤ d.length := by
  have hlen : (d.drop start).length = d.length - start := List.length_drop
  have hpre := line_prefix (d.drop start)
  have hafter := drop_line (d.drop start)
  rw [List.drop_drop] at hafter
  unfold lineAt?
  simp only [between?_length h, idxOf?_newline]
  by_cases hlt : (line (d.drop start)).length < (d.drop start).length
  · have hslice : d.between? start (start + (line (d.drop start)).length) =
        some ((d.drop start).take (line (d.drop start)).length) := between?_add (by omega)
    rw [← List.prefix_iff_eq_take.mp hpre] at hslice
    simp only [if_pos hlt, hslice]
    exact ⟨_, rfl, hafter, Nat.le_add_right _ _, by omega⟩
  · -- without a newline the line is all that is left
    have hline : line (d.drop start) = d.drop start := hpre.eq_of_length_le (by omega)
    simp only [if_neg hlt]
    refine ⟨_, by rw [hline], ?_, h, Nat.le_refl _⟩
    rw [← hafter, List.drop_length, List.drop_eq_nil_of_le (by omega)]

theorem lineAt?_le (h : d.lineAt? start = some (first, next)) : start ≤ d.length := by
  unfold lineAt? between? at h
  by_contra hlt
  rw [if_neg (by omega)] at h
  cases h

theorem lineAt?_some (h : d.lineAt? start = some (first, next)) :
    first = line (d.drop start) ∧ d.drop next = afterLine (d.drop start) ∧ next ≤ d.length := by
  obtain ⟨next', h', hnext, -, hend⟩ := lineAt?_eq (lineAt?_le h)
  cases h.symm.trans h'
  exact ⟨rfl, hnext, hend⟩

theorem drop_ne_nil (d : Bytes) (hlt : start < d.length) : d.drop start ≠ [] := by
  intro hn
  have := List.drop_eq_nil_iff.mp hn
  omega

theorem lineAt?_lt (h : d.lineAt? start = some (first, next)) (hlt : start < d.length) : start < next := by
  obtain ⟨-, hnext, -⟩ := lineAt?_some h
  cases hr : d.drop start with
  | nil => exact absurd hr (d.drop_ne_nil hlt)
  | cons c r =>
    have hl := length_afterLine_lt c r
    rw [← hr, ← hnext, List.length_drop, List.length_drop] at hl
    omega

theorem dropNewline_drop (d : Bytes) (pos : Nat) :
    dropNewline (d.drop pos) = d.drop (if d[pos]? = some newline then pos + 1 else pos) := by
  rw [← List.head?_drop]
  cases hr : d.drop pos with
  | nil => simp [dropNewline, hr]
  | cons c r =>
    have hr' : d.drop (pos + 1) = r := by rw [← List.drop_drop, hr]; rfl
    by_cases hc : c = newline
    · simp [dropNewline, hc, hr']
    · simp [dropNewline, hc, hr]

end Bytes

namespace Envelope

variable {d line : Bytes} {header : Object} {n pos : Nat}

/-! ## Items -/

/-- The payload at this position, and where what comes after it begins. -/
def payloadAt? (d : Bytes) (header : Object) (pos : Nat) : Option (Except WireError (Bytes × Nat)) :=
  match header.get? "length" with
  | none => (d.lineAt? pos).map .ok
  | some length =>
    match length.natural? with
    | none => some (.error (.invalidLength length.text))
    | some m =>
      match d.between? pos d.length with
      | none => none
      | some rest =>
        if rest.length < m.toNat then some (.error (.truncated m.toNat rest.length))
        else
          let stop := pos + m.toNat
          (d.between? pos stop).map fun payload =>
            .ok (payload, if d[stop]? = some Bytes.newline then stop + 1 else stop)

/-- The item whose header is this line, and where what comes after it begins. -/
def itemAt? (d : Bytes) (n : Nat) (line : Bytes) (pos : Nat) : Option (Except WireError (Item × Nat)) :=
  match readHeader n line with
  | .error e => some (.error e)
  | .ok header =>
    if ((header.get? "type").bind Json.string?).isNone then some (.error (.missingType n))
    else
      match payloadAt? d header pos with
      | none => none
      | some (.error e) => some (.error e)
      | some (.ok (payload, after)) => some (.ok (⟨header, .raw payload⟩, after))

/-- What was read of the bytes from a position on, with what is left of them told by a position. -/
inductive Located (d : Bytes) (pos : Nat) {α : Type} : Except WireError (α × Bytes) → Except WireError (α × Nat) → Prop
  | error (e : WireError) : Located d pos (.error e) (.error e)
  | ok {after : Nat} (x : α) (hl : pos ≤ after) (hh : after ≤ d.length) :
    Located d pos (.ok (x, d.drop after)) (.ok (x, after))

/-- A payload never goes beyond the data, whatever length the header tells. -/
theorem payloadAt?_eq (header : Object) (h : pos ≤ d.length) :
    ∃ r, payloadAt? d header pos = some r ∧ Located d pos (readPayload header (d.drop pos)) r := by
  unfold payloadAt? readPayload
  cases header.get? "length" with
  | none =>
    obtain ⟨next, hline, hnext, hle, hend⟩ := Bytes.lineAt?_eq h
    simp only [hline, ← hnext, Option.map_some]
    exact ⟨_, rfl, .ok _ hle hend⟩
  | some length =>
    dsimp only
    cases length.natural? with
    | none => exact ⟨_, rfl, .error _⟩
    | some m =>
      dsimp only
      rw [Bytes.between?_length h]
      dsimp only
      by_cases hlt : (d.drop pos).length < m.toNat
      · rw [if_pos hlt, if_pos hlt]
        exact ⟨_, rfl, .error _⟩
      · have hend : pos + m.toNat ≤ d.length := by rw [List.length_drop] at hlt; omega
        rw [if_neg hlt, if_neg hlt, Bytes.between?_add hend, List.drop_drop, Bytes.dropNewline_drop, Option.map_some]
        refine ⟨_, rfl, .ok _ ?_ ?_⟩
        · split <;> omega
        · split
          · next hc =>
            obtain ⟨hnl, -⟩ := List.getElem?_eq_some_iff.mp hc
            omega
          · exact hend

theorem itemAt?_eq (n : Nat) (line : Bytes) (h : pos ≤ d.length) :
    ∃ r, itemAt? d n line pos = some r ∧ Located d pos (readItem n line (d.drop pos)) r := by
  unfold itemAt? readItem
  cases readHeader n line with
  | error e => exact ⟨_, rfl, .error _⟩
  | ok header =>
    dsimp only
    by_cases ht : ((header.get? "type").bind Json.string?).isNone
    · rw [if_pos ht, if_pos ht]
      exact ⟨_, rfl, .error _⟩
    · obtain ⟨r, hr, hp⟩ := payloadAt?_eq header h
      rw [if_neg ht, if_neg ht, hr]
      generalize readPayload header (d.drop pos) = x at hp
      cases hp with
      | error e => exact ⟨_, rfl, .error e⟩
      | ok payload hl hh => exact ⟨_, rfl, .ok _ hl hh⟩

theorem itemAt?_some {r : Except WireError (Item × Nat)} (h : pos ≤ d.length) (hr : itemAt? d n line pos = some r) :
    Located d pos (readItem n line (d.drop pos)) r := by
  obtain ⟨r', hr', hl⟩ := itemAt?_eq n line h
  cases hr.symm.trans hr'
  exact hl

theorem itemAt?_error {e : WireError} (h : pos ≤ d.length) (hr : itemAt? d n line pos = some (.error e)) :
    readItem n line (d.drop pos) = .error e := by
  have hl := itemAt?_some h hr
  generalize readItem n line (d.drop pos) = x at hl ⊢
  cases hl
  rfl

theorem itemAt?_ok {i : Item} {after : Nat} (h : pos ≤ d.length)
    (hr : itemAt? d n line pos = some (.ok (i, after))) :
    readItem n line (d.drop pos) = .ok (i, d.drop after) ∧ pos ≤ after ∧ after ≤ d.length := by
  have hl := itemAt?_some h hr
  generalize readItem n line (d.drop pos) = x at hl ⊢
  cases hl with
  | ok _ hle hend => exact ⟨rfl, hle, hend⟩

/-! ## Envelopes -/

/-- The items from a position on, where `n` lines have been read. -/
def itemsAt? (d : Bytes) (n pos : Nat) : Option (Except WireError (List Item)) :=
  if hpos : pos < d.length then
    match hl : d.lineAt? pos with
    | none => none
    | some (line, next) =>
      have := Bytes.lineAt?_lt hl hpos
      if line.isEmpty then itemsAt? d (n + 1) next
      else
        match hi : itemAt? d (n + 1) line next with
        | none => none
        | some (.error e) => some (.error e)
        | some (.ok (item, after)) =>
          have := itemAt?_ok (Bytes.lineAt?_some hl).2.2 hi
          match itemsAt? d (n + 2) after with
          | none => none
          | some (.error e) => some (.error e)
          | some (.ok items) => some (.ok (item :: items))
  else some (.ok [])
termination_by d.length - pos

/-- The envelope in the data, read from position to position. -/
def scan? (d : Bytes) : Option (Except WireError Envelope) :=
  if d.isEmpty then some (.error .empty)
  else
    match d.lineAt? 0 with
    | none => none
    | some (line, next) =>
      match readHeader 1 line with
      | .error e => some (.error e)
      | .ok header =>
        match itemsAt? d 1 next with
        | none => none
        | some (.error e) => some (.error e)
        | some (.ok items) => some (.ok ⟨header, items⟩)

theorem readItems_of_blank (hd : d ≠ []) (hl : d.line = []) (n : Nat) :
    readItems n d = readItems (n + 1) d.afterLine := by
  cases d with
  | nil => exact absurd rfl hd
  | cons c r => rw [readItems, if_pos (by rw [hl]; rfl)]

/-- The cursor never leaves the data, and finds the same items. -/
theorem itemsAt?_eq (h : pos ≤ d.length) : itemsAt? d n pos = some (readItems n (d.drop pos)) := by
  fun_induction itemsAt? d n pos with
  | case1 n pos hpos hl =>
    -- there is a line at every position of the data
    obtain ⟨next, hl', -⟩ := Bytes.lineAt?_eq h
    cases hl.symm.trans hl'
  | case2 n pos hpos line next hl _ hb ih =>
    obtain ⟨rfl, hnext, hend⟩ := Bytes.lineAt?_some hl
    rw [ih hend, hnext, readItems_of_blank (d.drop_ne_nil hpos) (List.isEmpty_iff.mp hb)]
  | case3 n pos hpos line next hl _ hb hi =>
    obtain ⟨r, hr, -⟩ := itemAt?_eq (n + 1) line (Bytes.lineAt?_some hl).2.2
    cases hi.symm.trans hr
  | case4 n pos hpos line next hl _ hb e hi =>
    obtain ⟨rfl, hnext, hend⟩ := Bytes.lineAt?_some hl
    have hr := itemAt?_error hend hi
    rw [readItems_of_line rfl (by simpa using hb), ← hnext, hr]
  | case5 n pos hpos line next hl _ hb item after hi hle hnone ih =>
    cases hnone.symm.trans (ih hle.2.2)
  | case6 n pos hpos line next hl _ hb item after hi hle e he ih =>
    obtain ⟨rfl, hnext, hend⟩ := Bytes.lineAt?_some hl
    have hrest := Option.some.inj (he.symm.trans (ih hle.2.2))
    rw [readItems_of_line rfl (by simpa using hb), ← hnext, hle.1]
    dsimp only
    rw [← hrest]
  | case7 n pos hpos line next hl _ hb item after hi hle items hok ih =>
    obtain ⟨rfl, hnext, hend⟩ := Bytes.lineAt?_some hl
    have hrest := Option.some.inj (hok.symm.trans (ih hle.2.2))
    rw [readItems_of_line rfl (by simpa using hb), ← hnext, hle.1]
    dsimp only
    rw [← hrest]
  | case8 n pos hpos =>
    rw [List.drop_eq_nil_of_le (by omega), readItems]

theorem scan?_eq (d : Bytes) : scan? d = some (ofBytes d) := by
  obtain ⟨next, hline, hnext, -, hend⟩ := Bytes.lineAt?_eq (Nat.zero_le d.length)
  unfold scan? ofBytes
  by_cases hd : d.isEmpty
  · rw [if_pos hd, if_pos hd]
  · rw [if_neg hd, if_neg hd, hline]
    rw [List.drop_zero] at hnext ⊢
    dsimp only
    cases readHeader 1 d.line with
    | error e => rfl
    | ok header =>
      dsimp only
      rw [itemsAt?_eq hend, hnext]
      cases readItems 1 d.afterLine <;> rfl

/-- Reading ends for all data and no slice goes beyond it. What is read is what the data is by its grammar: all data
of this form is accepted, nothing else is, and the envelope is the one that the form tells. -/
theorem reads_exactly (d : Bytes) : scan? d = some (ofBytes d) ∧ ∀ e : Envelope, ofBytes d = .ok e ↔ Form d e :=
  ⟨scan?_eq d, fun _ => ofBytes_iff⟩

end Envelope

end Courier

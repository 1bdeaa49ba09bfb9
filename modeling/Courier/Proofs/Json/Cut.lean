import Courier.Proofs.Json.Read

/-!
# Text that is cut off

The text of an object that is cut off before its end is not read. Its brace is still open there, and what is read of
a text is never a part of a longer value.
-/

namespace Courier

/-! ## Scanning a part -/

namespace Token

variable {done done' ts : List Token} {mode mode' : Mode} {c : Char} {cs zs : List Char}

def scanTo? (done : List Token) (mode : Mode) : List Char → Option (List Token × Mode)
  | [] => some (done, mode)
  | c :: cs => (step? done mode c).bind fun x => scanTo? x.1 x.2 cs

theorem scanFrom?_append (done : List Token) (mode : Mode) (cs zs : List Char) :
    scanFrom? done mode (cs ++ zs) = (scanTo? done mode cs).bind fun x => scanFrom? x.1 x.2 zs := by
  induction cs generalizing done mode with
  | nil => rfl
  | cons c cs ih =>
    simp only [List.cons_append, scanFrom?, scanTo?]
    cases step? done mode c with
    | none => rfl
    | some x => exact ih x.1 x.2

theorem scanFrom?_eq (done : List Token) (mode : Mode) (cs : List Char) :
    scanFrom? done mode cs = (scanTo? done mode cs).bind fun x => finish? x.1 x.2 := by
  simpa [scanFrom?] using scanFrom?_append done mode cs []

theorem suffix_of_ite {p : Prop} [Decidable p] {x : List Token × Mode} {o : Option (List Token × Mode)}
    (hx : done <:+ x.1) (ho : ∀ y ∈ o, done <:+ y.1) : ∀ y ∈ (if p then some x else o), done <:+ y.1 := by
  intro y hy
  split at hy
  · cases hy
    exact hx
  · exact ho y hy

theorem start?_suffix (h : start? done c = some (done', mode')) : done <:+ done' := by
  have hs : ∀ y ∈ start? done c, done <:+ y.1 := by
    unfold start?
    repeat' apply suffix_of_ite
    all_goals simp
  exact hs _ h

theorem step?_suffix (h : step? done mode c = some (done', mode')) : done <:+ done' := by
  cases mode with
  | between => exact start?_suffix h
  | word read =>
    simp only [step?] at h
    split at h
    · cases h
      exact List.suffix_refl _
    · obtain ⟨t, -, h⟩ := Option.bind_eq_some_iff.mp h
      exact (List.suffix_cons ..).trans (start?_suffix h)
  | number read =>
    simp only [step?] at h
    split at h
    · cases h
      exact List.suffix_refl _
    · obtain ⟨t, -, h⟩ := Option.bind_eq_some_iff.mp h
      exact (List.suffix_cons ..).trans (start?_suffix h)
  | text read =>
    simp only [step?] at h
    split at h
    · cases h
      exact List.suffix_cons ..
    · split at h
      · cases h
        exact List.suffix_refl _
      · split at h <;> cases h
        exact List.suffix_refl _
  | escape read =>
    simp only [step?] at h
    split at h
    · cases h
      exact List.suffix_refl _
    · obtain ⟨d, -, h⟩ := Option.map_eq_some_iff.mp h
      cases h
      exact List.suffix_refl _
  | unit read missing value =>
    obtain ⟨d, -, h⟩ := Option.map_eq_some_iff.mp h
    split at h <;> cases h <;> exact List.suffix_refl _

theorem scanTo?_suffix (h : scanTo? done mode cs = some (done', mode')) : done <:+ done' := by
  induction cs generalizing done mode with
  | nil => cases h; exact List.suffix_refl _
  | cons c cs ih =>
    obtain ⟨x, hx, h⟩ := Option.bind_eq_some_iff.mp h
    exact (step?_suffix hx).trans (ih h)

/-- A value without parts that needs no closing mark. -/
def isBare : Token → Bool
  | null | bool _ | num _ => true
  | _ => false

theorem ofWord?_isBare {t : Token} (h : ofWord? cs = some t) : t.isBare = true := by
  unfold ofWord? at h
  split at h <;> cases h <;> rfl

theorem finish?_cases (h : finish? done mode = some ts) :
    (mode = .between ∧ ts = done.reverse) ∨ ∃ t, t.isBare = true ∧ ts = done.reverse ++ [t] := by
  cases mode with
  | between => cases h; exact .inl ⟨rfl, rfl⟩
  | word read =>
    obtain ⟨t, ht, rfl⟩ := Option.map_eq_some_iff.mp h
    exact .inr ⟨t, ofWord?_isBare ht, List.reverse_cons⟩
  | number read =>
    obtain ⟨n, -, rfl⟩ := Option.map_eq_some_iff.mp h
    exact .inr ⟨_, rfl, List.reverse_cons⟩
  | text => cases h
  | escape => cases h
  | unit => cases h

theorem scanFrom?_brace (h : scanFrom? done mode ['}'] = some ts) : ∃ more, ts = done.reverse ++ more ++ [.braceR] := by
  cases mode with
  | between => cases h; exact ⟨[], by simp⟩
  | word read =>
    simp only [scanFrom?, step?, show inWord '}' = false by decide, Bool.false_eq_true, if_false] at h
    cases hw : ofWord? read.reverse with
    | none => simp [hw] at h
    | some t =>
      simp only [hw, Option.bind_some] at h
      cases h
      exact ⟨[t], by simp⟩
  | number read =>
    simp only [scanFrom?, step?, show inNumber '}' = false by decide, Bool.false_eq_true, if_false] at h
    cases hn : Numeral.ofChars? read.reverse with
    | none => simp [hn] at h
    | some n =>
      simp only [hn, Option.bind_some] at h
      cases h
      exact ⟨[.num n.value?], by simp⟩
  | text read => cases h
  | escape read => cases h
  | unit read missing value => cases h

theorem scanFrom?_append_brace (h : scanFrom? done mode (cs ++ ['}']) = some ts) :
    ∃ more, ts = done.reverse ++ more ++ [.braceR] := by
  rw [scanFrom?_append] at h
  obtain ⟨⟨done', mode'⟩, hx, h⟩ := Option.bind_eq_some_iff.mp h
  obtain ⟨more, rfl⟩ := scanFrom?_brace h
  obtain ⟨pre, rfl⟩ := scanTo?_suffix hx
  exact ⟨pre.reverse ++ more, by simp⟩

end Token

/-! ## Reading a part -/

namespace Document

variable {s s' : State} {t : Token} {ts us : List Token} {d : Document}

theorem run?_append (s : State) (ts us : List Token) : run? s (ts ++ us) = (run? s ts).bind (run? · us) := by
  induction ts generalizing s with
  | nil => rfl
  | cons t ts ih =>
    simp only [List.cons_append, run?]
    cases step? s t with
    | none => rfl
    | some s' => exact ih s'

theorem value?_ne_start {frames : List Frame} (h : value? frames t = some s') : s' ≠ ⟨[], .value⟩ := by
  unfold value? at h
  split at h
  · cases h; simp
  · cases h; simp
  · obtain ⟨d, -, rfl⟩ := Option.map_eq_some_iff.mp h
    simp

/-- Once something was read, what comes next is not the whole value. -/
theorem step?_ne_start (h : step? s t = some s') : s' ≠ ⟨[], .value⟩ := by
  unfold step? at h
  split at h
  · exact value?_ne_start h
  · cases h; simp
  · exact value?_ne_start h
  · cases h; simp
  · cases h; simp
  · cases h; simp
  · cases h; simp
  · cases h; simp
  · cases h; simp
  · cases h; simp
  · cases h; simp
  · cases h

theorem run?_ne_start (h : run? s ts = some s') (hs : s ≠ ⟨[], .value⟩) : s' ≠ ⟨[], .value⟩ := by
  induction ts generalizing s with
  | nil => cases h; exact hs
  | cons t ts ih =>
    unfold run? at h
    split at h
    · cases h
    · next hx => exact ih h (step?_ne_start hx)

theorem value?_frames {frames : List Frame} (ht : t.isBare = true) (h : value? frames t = some s') :
    s'.frames = frames := by
  unfold value? at h
  split at h
  · cases ht
  · cases ht
  · obtain ⟨d, -, rfl⟩ := Option.map_eq_some_iff.mp h
    rfl

theorem step?_bare (ht : t.isBare = true) (h : step? s t = some ⟨[], .after d⟩) : s = ⟨[], .value⟩ := by
  unfold step? at h
  split at h
  · rw [← value?_frames ht h]
  · cases ht
  · exact absurd (value?_frames ht h) (by simp)
  · cases ht
  · cases ht
  · cases ht
  · cases ht
  · cases ht
  · cases ht
  · cases ht
  · cases ht
  · cases h

theorem ofTokens?_eq_some (h : ofTokens? ts = some d) : run? ⟨[], .value⟩ ts = some ⟨[], .after d⟩ := by
  unfold ofTokens? at h
  split at h
  · next hr => cases h; exact hr
  · cases h

/-- A text that begins with a brace is not read if a longer one is that ends with a brace. -/
theorem ofChars?_cut {cs zs : List Char} {d : Document} (h : ofChars? ('{' :: cs ++ (zs ++ ['}'])) = some d) :
    ofChars? ('{' :: cs) = none := by
  by_contra hn
  obtain ⟨d', h'⟩ := Option.ne_none_iff_exists'.mp hn
  obtain ⟨ts, hts, hd⟩ := Option.bind_eq_some_iff.mp h
  obtain ⟨ts', hts', hd'⟩ := Option.bind_eq_some_iff.mp h'
  rw [Token.scan?, Token.scanFrom?_append] at hts
  rw [Token.scan?, Token.scanFrom?_eq] at hts'
  obtain ⟨⟨done, mode⟩, hx, hf⟩ := Option.bind_eq_some_iff.mp hts'
  rw [hx, Option.bind_some] at hts
  obtain ⟨more, rfl⟩ := Token.scanFrom?_append_brace hts
  have hrun := ofTokens?_eq_some hd
  have hrun' := ofTokens?_eq_some hd'
  rcases Token.finish?_cases hf with ⟨-, rfl⟩ | ⟨t, ht, rfl⟩
  · -- The shorter text is a whole value, and the brace comes after it.
    rw [List.append_assoc, run?_append, hrun', Option.bind_some] at hrun
    cases more with
    | nil => cases hrun
    | cons t more => cases hrun
  · -- The word or number at the end of the shorter text is not all there is.
    rw [run?_append] at hrun'
    obtain ⟨s, hs, hstep⟩ := Option.bind_eq_some_iff.mp hrun'
    have hstart : s = ⟨[], .value⟩ := by
      refine step?_bare (d := d') ht ?_
      unfold run? at hstep
      split at hstep
      · cases hstep
      · next hx => rw [hx]; exact hstep
    have hopen : Token.scanTo? [.braceL] .between cs = some (done, mode) := hx
    obtain ⟨pre, rfl⟩ := Token.scanTo?_suffix hopen
    rw [List.reverse_append, List.reverse_singleton, List.singleton_append] at hs
    exact run?_ne_start (s := ⟨[], .firstKey⟩) hs (by simp) hstart

end Document

namespace Json

/-- No part of the text of an object is read but the whole. -/
theorem ofChars?_render_cut {o : Object} {cs : List Char} (hc : cs <+: (obj o).render) (hn : cs ≠ (obj o).render) :
    ofChars? cs = none := by
  obtain ⟨inner, hr⟩ := render_obj o
  cases cs with
  | nil => rfl
  | cons c cs =>
    rw [hr, List.cons_prefix_cons] at hc
    obtain ⟨rfl, hc⟩ := hc
    obtain rfl | ⟨zs, rfl⟩ := List.prefix_concat_iff.mp hc
    · exact absurd hr.symm hn
    obtain ⟨ts, ht⟩ := tokens?_isSome (obj o)
    have hd := Document.ofChars?_render (obj o)
    rw [ht, hr, List.append_assoc] at hd
    rw [ofChars?, Document.ofChars?_cut hd]
    rfl

end Json

end Courier

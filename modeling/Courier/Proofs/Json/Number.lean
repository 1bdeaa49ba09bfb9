import Courier.Json.Token
import Courier.Json.Writer
import Courier.Proofs.Digits

/-!
# Numbers as text

An integer reads back as it was. The text of a double is made of the characters of a number, and what is read
from it, if anything, is a double again.
-/

namespace Courier

namespace Numeral

def values (cs : List Char) : List Nat := cs.map fun c => c.toNat - 48

theorem digits_append {cs rest : List Char} (h : ∀ c ∈ cs, c.isDigit = true)
    (hr : ∀ c ∈ rest.head?, c.isDigit = false) :
    digits (cs ++ rest) = values cs ∧ afterDigits (cs ++ rest) = rest := by
  have hn : rest.takeWhile Char.isDigit = [] ∧ rest.dropWhile Char.isDigit = rest := by
    cases rest with
    | nil => exact ⟨rfl, rfl⟩
    | cons c rest => simp [hr c rfl]
  rw [digits, afterDigits, List.takeWhile_append_of_pos h, List.dropWhile_append_of_pos h, hn.1, hn.2,
    List.append_nil]
  exact ⟨rfl, rfl⟩

theorem foldl_values_eq (cs : List Char) : (values cs).foldl (fun a d => a * 10 + d) 0 = Text.valueOf cs := by
  rw [values, List.foldl_map]
  rfl

theorem foldl_values (n : Nat) : (values (Nat.toDigits 10 n)).foldl (fun a d => a * 10 + d) 0 = n := by
  rw [foldl_values_eq, Text.valueOf_toDigits]

/-- Digits of which none is a leading zero may stand before the point. -/
theorem whole_valid {cs : List Char} (hn : cs ≠ []) (hd : ∀ c ∈ cs, c.isDigit = true)
    (hz : cs.head? = some '0' → cs.length = 1) :
    ((values cs).isEmpty || ((values cs).head? == some 0 && (values cs).length != 1)) = false := by
  obtain ⟨c, cs, rfl⟩ := List.exists_cons_of_ne_nil hn
  by_cases h0 : c.toNat - 48 = 0
  · have hdc := Text.digit_bounds (hd c List.mem_cons_self)
    have hc : c = '0' := Char.toNat_inj.mp (show c.toNat = 48 by omega)
    have hl : cs = [] := by simpa using hz (by rw [hc]; rfl)
    simp [values, hl]
  · simp [values, h0]

theorem unsigned?_toDigits (negative : Bool) (n : Nat) :
    unsigned? negative (Nat.toDigits 10 n) = some ⟨negative, values (Nat.toDigits 10 n), [], none⟩ := by
  have hd := fun c (h : c ∈ Nat.toDigits 10 n) => isDigit_of_mem_toDigits h
  have hw : ((values (Nat.toDigits 10 n)).isEmpty ||
      ((values (Nat.toDigits 10 n)).head? == some 0 && (values (Nat.toDigits 10 n)).length != 1)) = false := by
    obtain ⟨c, cs, hc, hz⟩ := toDigits_head n
    refine whole_valid Nat.toDigits_ne_nil hd fun h => ?_
    rw [hc] at h ⊢
    rw [(hz (Option.some.inj h)).2]
    rfl
  obtain ⟨h₁, h₂⟩ := digits_append hd (show ∀ c ∈ ([] : List Char).head?, c.isDigit = false by simp)
  rw [List.append_nil] at h₁ h₂
  simp only [unsigned?, h₁, h₂, hw, fraction?, exponent?]
  rfl

theorem ofChars?_toDigits (n : Nat) :
    ofChars? (Nat.toDigits 10 n) = some ⟨false, values (Nat.toDigits 10 n), [], none⟩ := by
  unfold ofChars?
  split
  · next h => exact absurd (isDigit_of_mem_toDigits (c := '-') (n := n) (by simp [h])) (by decide)
  · exact unsigned?_toDigits false n

theorem value?_nat {n : Nat} (hn : n < 2 ^ 64) :
    (⟨false, values (Nat.toDigits 10 n), [], none⟩ : Numeral).value? = some (.nat n.toUInt64) := by
  simp only [value?, foldl_values, List.isEmpty_nil, Option.isNone_none, Bool.and_self, Bool.false_eq_true, ite_true,
    ite_false]
  exact if_pos hn

theorem value?_negSucc (k : Fin (2 ^ 63)) :
    (⟨true, values (Nat.toDigits 10 (k.val + 1)), [], none⟩ : Numeral).value? = some (.negSucc k) := by
  have hk : 0 < k.val + 1 ∧ k.val + 1 ≤ 2 ^ 63 := ⟨k.val.succ_pos, k.isLt⟩
  simp only [value?, foldl_values, List.isEmpty_nil, Option.isNone_none, Bool.and_self, ite_true]
  exact dif_pos hk

end Numeral

/-! ## What is scanned as a number -/

/-- Text that the scanner takes for one number. -/
structure Numeric (cs : List Char) : Prop where
  head : ∃ c rest, cs = c :: rest ∧ (c.isDigit || c = '-') = true
  chars : ∀ c ∈ cs, Token.inNumber c = true

theorem inNumber_of_isDigit {c : Char} (h : c.isDigit = true) : Token.inNumber c = true := by
  simp [Token.inNumber, h]

theorem numeric_of_digits {cs : List Char} (hn : cs ≠ []) (h : ∀ c ∈ cs, c.isDigit = true) : Numeric cs where
  head := by
    obtain ⟨c, rest, rfl⟩ := List.exists_cons_of_ne_nil hn
    exact ⟨c, rest, rfl, by simp [h c]⟩
  chars c hc := inNumber_of_isDigit (h c hc)

theorem numeric_toDigits (n : Nat) : Numeric (Nat.toDigits 10 n) :=
  numeric_of_digits Nat.toDigits_ne_nil fun _ hc => isDigit_of_mem_toDigits hc

theorem Numeric.append {cs ds : List Char} (h : Numeric cs) (hd : ∀ c ∈ ds, Token.inNumber c = true) :
    Numeric (cs ++ ds) where
  head := by
    obtain ⟨c, rest, rfl, hc⟩ := h.head
    exact ⟨c, rest ++ ds, rfl, hc⟩
  chars c hc := by
    rcases List.mem_append.mp hc with hc | hc
    · exact h.chars c hc
    · exact hd c hc

theorem Numeric.minus {cs : List Char} (h : Numeric cs) : Numeric ('-' :: cs) where
  head := ⟨'-', cs, rfl, rfl⟩
  chars c hc := by
    rcases List.mem_cons.mp hc with rfl | hc
    · rfl
    · exact h.chars c hc

/-! ## Doubles -/

theorem toList_pushn (s : String) (c : Char) (n : Nat) : (s.pushn c n).toList = s.toList ++ List.replicate n c := by
  rw [String.pushn_eq_repeat_push]
  induction n with
  | zero => simp [Nat.repeat]
  | succ n ih => simp [Nat.repeat, ih, List.replicate_succ']

/-- Whether a text has a point or an exponent. -/
def Broken (cs : List Char) : Prop := '.' ∈ cs ∨ 'e' ∈ cs

namespace Decimal.Scaled

theorem isDigit_of_mem_zeros {n : Nat} {c : Char} (h : c ∈ "".toList ++ List.replicate n '0') :
    c.isDigit = true := by
  have hc : c ∈ List.replicate n '0' := by simpa using h
  rw [(List.mem_replicate.mp hc).2]
  rfl

theorem cut_numeric {cs : List Char} {k : Nat} (hd : ∀ c ∈ cs, c.isDigit = true) (hk : 0 < k) (hl : k ≤ cs.length) :
    Numeric (cs.take k ++ ".".toList ++ cs.drop k) ∧ Broken (cs.take k ++ ".".toList ++ cs.drop k) := by
  have hn : cs.take k ≠ [] := by
    intro h
    rcases List.take_eq_nil_iff.mp h with h | h
    · omega
    · simp [h] at hl
      omega
  refine ⟨.append (.append (numeric_of_digits hn fun c hc => hd c (List.mem_of_mem_take hc)) ?_) ?_, .inl (by simp)⟩
  · simp [Token.inNumber]
  · exact fun c hc => inNumber_of_isDigit (hd c (List.mem_of_mem_drop hc))

theorem positional_numeric (s : Scaled) : Numeric (s.positional 1).toList ∧ Broken (s.positional 1).toList := by
  unfold positional
  simp only [Nat.toString_eq_repr]
  split
  · simp only [Nat.reduceEqDiff, ite_false, String.toList_append, toList_pushn, Nat.toList_repr]
    have hz : ∀ {n : Nat}, ∀ c ∈ "".toList ++ List.replicate n '0', Token.inNumber c = true := fun c hc =>
      inNumber_of_isDigit (isDigit_of_mem_zeros hc)
    refine ⟨.append (.append (.append (numeric_toDigits _) hz) ?_) hz, .inl (by simp)⟩
    simp [Token.inNumber]
  · simp only [String.toList_append, toList_pushn, Nat.toList_repr, String.toList_ofList]
    refine cut_numeric ?_ ?_ (Nat.sub_le ..)
    · intro c hc
      rcases List.mem_append.mp hc with hc | hc
      · exact isDigit_of_mem_zeros hc
      · exact isDigit_of_mem_toDigits hc
    · simp [← String.length_toList]
      omega

theorem scientific_numeric (s : Scaled) : Numeric s.scientific.toList ∧ Broken s.scientific.toList := by
  obtain ⟨c, cs, hc, -⟩ := toDigits_head s.digits
  have hd : ∀ b ∈ c :: cs, b.isDigit = true := fun b hb => isDigit_of_mem_toDigits (hc ▸ hb)
  have he := (numeric_toDigits (s.exponent + ((c :: cs).length - 1 : Nat)).natAbs).chars
  unfold scientific
  simp only [Nat.toString_eq_repr, Nat.toList_repr, hc, String.toList_append, String.toList_ofList]
  refine ⟨.append (.append (.append (.append ?_ ?_) ?_) ?_) he, .inr (by simp)⟩
  · exact numeric_of_digits (by simp) fun b hb => hd b (List.mem_of_mem_take hb)
  · split
    · simp
    · intro b hb
      simp only [String.toList_append, String.toList_ofList, List.mem_append] at hb
      rcases hb with hb | hb
      · simp at hb; simp [hb, Token.inNumber]
      · exact inNumber_of_isDigit (hd b (List.mem_of_mem_drop hb))
  · simp [Token.inNumber]
  · split <;> simp [Token.inNumber]

end Decimal.Scaled

theorem signed_numeric {cs sign : List Char} (hs : sign = [] ∨ sign = ['-']) (h : Numeric cs ∧ Broken cs) :
    Numeric (sign ++ cs) ∧ Broken (sign ++ cs) := by
  rcases hs with rfl | rfl
  · exact h
  · exact ⟨h.1.minus, h.2.imp (List.mem_cons_of_mem _) (List.mem_cons_of_mem _)⟩

/-- The text of a double is scanned as one number, and not as an integer. -/
theorem Float.json_numeric {x : Float} (h : x.isFinite = true) :
    Numeric (Float.json x).toList ∧ Broken (Float.json x).toList := by
  have hs : (if x.toBits >>> 63 == 1 then "-" else "").toList = [] ∨
      (if x.toBits >>> 63 == 1 then "-" else "").toList = ['-'] := by
    split <;> simp
  unfold Float.json
  simp only [h, Bool.not_true, Bool.false_eq_true, ite_false]
  split
  · rw [String.toList_append]
    refine signed_numeric hs ⟨?_, .inl (by simp)⟩
    have hz : Numeric ['0'] := numeric_of_digits (by simp) (by simp)
    have hd : ∀ c ∈ ['.', '0'], Token.inNumber c = true := by simp [Token.inNumber]
    exact hz.append hd
  · split
    · rw [String.toList_append]
      exact signed_numeric hs (Decimal.Scaled.positional_numeric _)
    · rw [String.toList_append]
      exact signed_numeric hs (Decimal.Scaled.scientific_numeric _)

namespace Numeral

theorem exponent?_eq_none {cs : List Char} (h : exponent? cs = some none) : cs = [] := by
  unfold exponent? at h
  split at h
  · rfl
  · split at h
    · split at h
      · simp at h
      · simp at h
      · simp at h
    · cases h

/-- What has a point or an exponent is no integer. -/
theorem unsigned?_value? {negative : Bool} {cs : List Char} {n : Numeral} (h : unsigned? negative cs = some n)
    (hb : Broken cs) : n.value? = n.float?.map .float := by
  suffices (n.fraction.isEmpty && n.exponent.isNone) = false by simp [value?, this]
  unfold unsigned? at h
  simp only at h
  split at h
  · cases h
  · split at h
    · cases h
    · next fraction rest hf =>
      obtain ⟨e, he, rfl⟩ := Option.map_eq_some_iff.mp h
      cases e with
      | some e => simp
      | none =>
        have hr := exponent?_eq_none he
        unfold fraction? at hf
        split at hf
        · split at hf
          · cases hf
          · next hd => cases hf; simpa using hd
        · simp only [Option.some.injEq, Prod.mk.injEq] at hf
          have hd : afterDigits cs = [] := hf.2.trans hr
          have ha : ∀ c ∈ cs, c.isDigit = true := by
            rw [← List.takeWhile_append_dropWhile (p := Char.isDigit) (l := cs), show cs.dropWhile _ = [] from hd,
              List.append_nil]
            exact List.all_eq_true.mp List.all_takeWhile
          rcases hb with hb | hb
          · exact absurd (ha _ hb) (by decide)
          · exact absurd (ha _ hb) (by decide)

theorem ofChars?_value? {cs : List Char} {n : Numeral} (h : ofChars? cs = some n) (hb : Broken cs) :
    n.value? = n.float?.map .float := by
  unfold ofChars? at h
  split at h
  · exact unsigned?_value? h (hb.imp (by simp) (by simp))
  · exact unsigned?_value? h hb

end Numeral

theorem Float.json_infinite {x : Float} (h : x.isFinite = false) : Float.json x = "null" := by
  simp [Float.json, h]

end Courier

import Courier.Bytes
import Mathlib.Data.List.TakeWhile

/-!
# Text and lines as bytes

Text reads back from its bytes, and only a newline is spelled with the byte of a newline. So a line ends where
the text of it ends.
-/

namespace Courier.Bytes

theorem ofString_eq (s : String) : ofString s = s.toList.flatMap String.utf8EncodeChar := by
  rw [ofString, String.toUTF8, ← String.utf8Encode_toList, List.utf8Encode, List.toList_data_toByteArray]

theorem utf8EncodeChar_ascii {c : Char} (h : c.toNat < 128) : String.utf8EncodeChar c = [UInt8.ofNat c.toNat] := by
  have hle : c.val.toNat ≤ 127 := Nat.le_of_lt_succ h
  rw [String.utf8EncodeChar, if_pos hle]
  rfl

theorem flatMap_utf8EncodeChar_lt {cs ds : List Char} (hcs : ∀ c ∈ cs, c.toNat < 128) (hds : ∀ d ∈ ds, d.toNat < 128)
    (h : cs < ds) : cs.flatMap String.utf8EncodeChar < ds.flatMap String.utf8EncodeChar := by
  induction cs generalizing ds with
  | nil =>
    cases ds with
    | nil => exact absurd h (List.lt_irrefl _)
    | cons d ds =>
      rw [List.flatMap_cons, utf8EncodeChar_ascii (hds d List.mem_cons_self)]
      exact List.nil_lt_cons _ _
  | cons c cs ih =>
    cases ds with
    | nil => exact absurd h (List.not_lt_nil _)
    | cons d ds =>
      have hc := hcs c List.mem_cons_self
      have hd := hds d List.mem_cons_self
      rw [List.flatMap_cons, List.flatMap_cons, utf8EncodeChar_ascii hc, utf8EncodeChar_ascii hd, List.singleton_append,
        List.singleton_append, List.cons_lt_cons_iff]
      rcases List.cons_lt_cons_iff.mp h with hlt | ⟨rfl, hlt⟩
      · left
        have hv : c.toNat < d.toNat := UInt32.lt_iff_toNat_lt.mp hlt
        rw [UInt8.lt_iff_toNat_lt, UInt8.toNat_ofNat', UInt8.toNat_ofNat']
        omega
      · right
        refine ⟨rfl, ih ?_ ?_ hlt⟩
        · exact fun x hx => hcs x (List.mem_cons_of_mem _ hx)
        · exact fun x hx => hds x (List.mem_cons_of_mem _ hx)

theorem ofString_lt {s t : String} (hs : ∀ c ∈ s.toList, c.toNat < 128) (ht : ∀ c ∈ t.toList, c.toNat < 128)
    (h : s < t) : ofString s < ofString t := by
  rw [ofString_eq, ofString_eq]
  exact flatMap_utf8EncodeChar_lt hs ht h

theorem toString?_ofString (s : String) : toString? (ofString s) = some s := by
  have hb : (ofString s).toByteArray = s.toByteArray := by
    rw [ofString_eq, ← List.utf8Encode, String.utf8Encode_toList]
  rw [toString?, hb, String.fromUTF8?, dif_pos s.isValidUTF8]
  rfl

theorem toString?_eq_some {b : Bytes} {s : String} (hb : toString? b = some s) : ofString s = b := by
  unfold toString? String.fromUTF8? at hb
  split at hb
  · cases hb
    exact List.toList_data_toByteArray
  · cases hb

theorem prefix_of_ofString {s t : String} (h : ofString s <+: ofString t) : s.toList <+: t.toList := by
  obtain ⟨r, h⟩ := h
  refine List.isPrefix_of_utf8Encode_append_eq_utf8Encode r.toByteArray ?_
  rw [ofString_eq, ofString_eq] at h
  rw [List.utf8Encode, List.utf8Encode, ← h, List.toByteArray_append]

theorem eq_newline_of_mem_utf8EncodeChar {c : Char} (h : newline ∈ String.utf8EncodeChar c) : c = '\n' := by
  have hn (n : Nat) (hv : newline = UInt8.ofNat n) : n % 256 = 10 := by
    have := congrArg UInt8.toNat hv
    simpa [newline] using this.symm
  unfold String.utf8EncodeChar at h
  simp only at h
  split at h
  · next hc =>
    have := hn c.val.toNat (List.mem_singleton.mp h)
    exact Char.toNat_inj.mp (show c.val.toNat = 10 by omega)
  · split at h
    · simp only [List.mem_cons, List.not_mem_nil, or_false] at h
      rcases h with h | h <;> have := hn _ h <;> omega
    · split at h
      · simp only [List.mem_cons, List.not_mem_nil, or_false] at h
        rcases h with h | h | h <;> have := hn _ h <;> omega
      · simp only [List.mem_cons, List.not_mem_nil, or_false] at h
        rcases h with h | h | h | h <;> have := hn _ h <;> omega

theorem newline_notMem_ofString {s : String} (h : '\n' ∉ s.toList) : newline ∉ ofString s := by
  rw [ofString_eq, List.mem_flatMap]
  rintro ⟨c, hc, hm⟩
  exact h (eq_newline_of_mem_utf8EncodeChar hm ▸ hc)

theorem bne_newline_of_notMem {b : Bytes} (h : newline ∉ b) : ∀ c ∈ b, (c != newline) = true := by
  intro c hc
  rw [bne_iff_ne]
  rintro rfl
  exact h hc

theorem line_of_notMem {b : Bytes} (h : newline ∉ b) : b.line = b :=
  List.takeWhile_eq_self_iff.mpr (bne_newline_of_notMem h)

theorem afterLine_of_notMem {b : Bytes} (h : newline ∉ b) : b.afterLine = [] := by
  rw [afterLine, List.dropWhile_eq_nil_iff.mpr (bne_newline_of_notMem h), List.drop_nil]

theorem line_append {b : Bytes} (h : newline ∉ b) (rest : Bytes) : line (b ++ newline :: rest) = b := by
  rw [line, List.takeWhile_append_of_pos (bne_newline_of_notMem h)]
  simp

theorem afterLine_append {b : Bytes} (h : newline ∉ b) (rest : Bytes) : afterLine (b ++ newline :: rest) = rest := by
  rw [afterLine, List.dropWhile_append_of_pos (bne_newline_of_notMem h)]
  simp

end Courier.Bytes

import Courier.Delivery.SpillDir
import Courier.Proofs.Digits
import Courier.Proofs.Paths

/-!
# Names of spilled envelopes

A name tells its sequence number. Names of one directory are in the order of their times, and at the same time in
the order of their numbers, as long as the digits suffice.
-/

namespace Courier

/-! ## Digits in order -/

namespace Text

/-- Of as many digits, those of the smaller number come first, whatever follows. -/
theorem lt_of_valueOf {as bs : List Char} (hl : as.length = bs.length) (ha : ∀ c ∈ as, c.isDigit = true)
    (hb : ∀ c ∈ bs, c.isDigit = true) (h : valueOf as < valueOf bs) (cs ds : List Char) :
    as ++ cs < bs ++ ds := by
  induction as generalizing bs with
  | nil =>
    cases List.length_eq_zero_iff.mp hl.symm
    exact absurd h (Nat.lt_irrefl _)
  | cons a as ih =>
    cases bs with
    | nil => cases hl
    | cons b bs =>
      have hl : as.length = bs.length := by simpa using hl
      have ha' : ∀ c ∈ as, c.isDigit = true := fun c hc => ha c (List.mem_cons_of_mem _ hc)
      have hb' : ∀ c ∈ bs, c.isDigit = true := fun c hc => hb c (List.mem_cons_of_mem _ hc)
      have hda := digit_bounds (ha a List.mem_cons_self)
      have hdb := digit_bounds (hb b List.mem_cons_self)
      rw [valueOf_cons, valueOf_cons, hl] at h
      rw [List.cons_append, List.cons_append, List.cons_lt_cons_iff]
      rcases Nat.lt_trichotomy a.toNat b.toNat with hab | hab | hab
      · exact .inl hab
      · refine .inr ⟨Char.toNat_inj.mp hab, ih hl ha' hb' ?_⟩
        rw [hab] at h
        omega
      · have hv := valueOf_lt hb'
        have hm : 10 ^ bs.length * (b.toNat - 48 + 1) ≤ 10 ^ bs.length * (a.toNat - 48) :=
          Nat.mul_le_mul_left _ (by omega)
        rw [Nat.mul_add, Nat.mul_one] at hm
        omega

end Text

namespace SpillDir

open Text

theorem isDigit_padded {width n : Nat} : ∀ c ∈ padded width n, c.isDigit = true := by
  intro c hc
  rcases List.mem_append.mp hc with hc | hc
  · rw [List.eq_of_mem_replicate hc]
    decide
  · exact isDigit_of_mem_toDigits hc

theorem valueOf_padded (width n : Nat) : valueOf (padded width n) = n := by
  rw [padded, valueOf_zeros, valueOf_toDigits]

theorem length_padded {width n : Nat} (hw : 0 < width) (h : n < 10 ^ width) : (padded width n).length = width := by
  have hl := (Nat.length_toDigits_le_iff (b := 10) (by decide) hw).mpr h
  rw [padded, List.length_append, List.length_replicate]
  omega

theorem padded_lt {width m n : Nat} (hw : 0 < width) (hn : n < 10 ^ width) (h : m < n) (cs ds : List Char) :
    padded width m ++ cs < padded width n ++ ds := by
  refine lt_of_valueOf ?_ isDigit_padded isDigit_padded (by rwa [valueOf_padded, valueOf_padded]) cs ds
  rw [length_padded hw (Nat.lt_trans h hn), length_padded hw hn]

theorem word?_padded {width n : Nat} (h : n < 2 ^ 64) : word? (padded width n) = some n.toUInt64 := by
  have hne : padded width n ≠ [] := by simp [padded]
  have hd : (padded width n).all Char.isDigit = true := List.all_eq_true.mpr isDigit_padded
  have hhead : (padded width n).head? ≠ some '+' := by
    intro he
    have := isDigit_padded _ (List.mem_of_mem_head? he)
    cases this
  rw [word?]
  simp only [hhead, ite_false, List.isEmpty_eq_false_iff.mpr hne, hd, Bool.not_true, Bool.or_self, valueOf_padded,
    Bool.false_eq_true, if_pos h]

/-! ## Names -/

variable (t : Timestamp) (q : UInt64)

def stemChars : List Char := padded 13 t.millis.toNat ++ '-' :: padded 6 (q % modulus).toNat

theorem fileName_toList : (fileName t q).toList = stemChars t q ++ '.' :: extension.toList := by
  simp [fileName, stemChars]

theorem modulus_bound : (q % modulus).toNat < 10 ^ 6 := by
  rw [UInt64.toNat_mod]
  exact Nat.mod_lt _ (by decide)

theorem isName_fileName : Path.IsName (fileName t q) := by
  have hd : '-' ∈ (fileName t q).toList := by
    rw [fileName_toList, stemChars]
    simp
  refine ⟨fun h => ?_, fun h => ?_, fun h => ?_, fun h => ?_⟩
  · rw [fileName_toList, stemChars] at h
    have hno {w n : Nat} : '/' ∉ padded w n := fun hm => absurd (isDigit_padded _ hm) (by decide)
    have he : '/' ∉ extension.toList := by decide
    simp [hno, he] at h
  · rw [h] at hd; cases hd
  · rw [h] at hd; revert hd; decide
  · rw [h] at hd; revert hd; decide

theorem splitName_append {stem ext : List Char} (hs : stem ≠ []) (he : '.' ∉ ext) {s : String}
    (h : s.toList = stem ++ '.' :: ext) : Path.splitName s = (String.ofList stem, some (String.ofList ext)) := by
  have hr : s.toList.reverse = ext.reverse ++ '.' :: stem.reverse := by rw [h]; simp
  have hp : ∀ c ∈ ext.reverse, decide (c ≠ '.') = true := fun c hc => by
    rw [decide_eq_true_iff]
    rintro rfl
    exact he (List.mem_reverse.mp hc)
  obtain ⟨c, before, hc⟩ := List.exists_cons_of_ne_nil (fun h => hs (List.reverse_eq_nil_iff.mp h))
  have hc' : String.ofList (c :: before).reverse = String.ofList stem := by rw [← hc, List.reverse_reverse]
  rw [Path.splitName, hr, List.dropWhile_append_of_pos hp, List.takeWhile_append_of_pos hp, hc]
  simpa using hc'

theorem splitName_fileName : Path.splitName (fileName t q) = (String.ofList (stemChars t q), some extension) := by
  rw [splitName_append (by simp [stemChars]) (by decide)
    (fileName_toList t q), String.ofList_toList]

variable (dir : Path)

theorem extension?_join : (dir.join (fileName t q)).extension? = some extension := by
  rw [Path.extension?, dir.fileName?_join (isName_fileName t q), Option.bind_some, splitName_fileName]

theorem sequence?_join : sequence? (dir.join (fileName t q)) = some (q % modulus) := by
  have hn : ∀ c ∈ padded 13 t.millis.toNat, decide (c ≠ '-') = true := fun c hc => by
    rw [decide_eq_true_iff]
    rintro rfl
    exact absurd (isDigit_padded _ hc) (by decide)
  have hd : (stemChars t q).dropWhile (fun c => decide (c ≠ '-')) = '-' :: padded 6 (q % modulus).toNat := by
    rw [stemChars, List.dropWhile_append_of_pos hn]
    simp
  rw [sequence?, Path.stem?, dir.fileName?_join (isName_fileName t q), Option.map_some, Option.bind_some,
    splitName_fileName, String.toList_ofList, hd]
  simp only
  rw [word?_padded (Nat.lt_trans (modulus_bound q) (by decide)), Nat.toUInt64_eq, UInt64.ofNat_toNat]

theorem same_fileName {t t' : Timestamp} {q q' : UInt64}
    (h : (dir.join (fileName t q)).same (dir.join (fileName t' q')) = true) : q % modulus = q' % modulus := by
  have hn := (dir.same_join (isName_fileName t q) (isName_fileName t' q')).mp h
  have hs := sequence?_join t q dir
  rw [hn, sequence?_join] at hs
  exact (Option.some.inj hs).symm

theorem mod_modulus {q : UInt64} (hq : q < modulus) : q % modulus = q := by
  rw [← UInt64.toNat_inj, UInt64.toNat_mod]
  exact Nat.mod_eq_of_lt (UInt64.lt_iff_toNat_lt.mp hq)

/-- As long as the digits suffice, names are in the order of their times, and at one time in that of their numbers. -/
theorem fileName_lt {t t' : Timestamp} {q q' : UInt64} (hb : t.millis.toNat < 10 ^ 13) (hm : q < modulus)
    (h : t'.millis < t.millis ∨ t'.millis = t.millis ∧ q' < q) : fileName t' q' < fileName t q := by
  show (fileName t' q').toList < (fileName t q).toList
  rw [fileName_toList, fileName_toList, stemChars, stemChars, List.append_assoc, List.append_assoc]
  rcases h with ht | ⟨ht, hq⟩
  · exact padded_lt (by decide) hb (UInt64.lt_iff_toNat_lt.mp ht) _ _
  · have hlt : q'.toNat < q.toNat := UInt64.lt_iff_toNat_lt.mp hq
    have hsix : q.toNat < 10 ^ 6 := UInt64.lt_iff_toNat_lt.mp hm
    rw [ht, mod_modulus hm, mod_modulus (UInt64.lt_trans hq hm)]
    refine List.append_left_lt ?_
    rw [List.cons_append, List.cons_append, List.cons_lt_cons_iff]
    exact .inr ⟨rfl, padded_lt (by decide) hsix hlt _ _⟩

theorem fileName_before {t t' : Timestamp} {q q' : UInt64} (ht : t'.millis ≤ t.millis) (hb : t.millis.toNat < 10 ^ 13)
    (hq : q' < q) (hm : q < modulus) : (dir.join (fileName t' q')).before (dir.join (fileName t q)) = true := by
  refine dir.join_before (isName_fileName t' q') (isName_fileName t q) (fileName_lt hb hm ?_)
  rcases UInt64.lt_or_eq_of_le ht with hlt | heq
  · exact .inl hlt
  · exact .inr ⟨heq, hq⟩

end SpillDir

end Courier

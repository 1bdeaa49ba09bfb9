import Courier.Decimal.Shortest
import Courier.Proofs.Rounding

/-!
# Shortest digits

The digits that are found for a double stand for one of the reals that are rounded to it. With seventeen digits at the
most there always are some.
-/

namespace Courier.Decimal

open Float.Model Float.Model.UnpackedFloat

def Scaled.value (s : Scaled) : ℚ := s.digits * 10 ^ s.exponent

theorem ten_zpow (e : Int) : (10 : ℚ) ^ e * (10 : ℚ) ^ (-e).toNat = (10 : ℚ) ^ e.toNat := by
  rw [← zpow_natCast, ← zpow_natCast, ← zpow_add₀ (by norm_num)]
  congr 1
  omega

namespace Interval

variable {i : Interval}

def Covers (i : Interval) (q : ℚ) : Prop := i.low ≤ q * i.scale ∧ q * i.scale ≤ i.high

theorem covers_of_mem {e : Int} {d : Nat} (h : i.mem (d * 10 ^ e.toNat) (10 ^ (-e).toNat) = true) :
    i.Covers (d * 10 ^ e) := by
  have hle : i.low * 10 ^ (-e).toNat ≤ d * 10 ^ e.toNat * i.scale ∧
      d * 10 ^ e.toNat * i.scale ≤ i.high * 10 ^ (-e).toNat := by
    unfold mem at h
    split at h <;> simp only [Bool.and_eq_true, decide_eq_true_eq] at h <;> omega
  have hpos : (0 : ℚ) < (10 : ℚ) ^ (-e).toNat := by positivity
  have hq : (d : ℚ) * (10 : ℚ) ^ e.toNat * i.scale = d * (10 : ℚ) ^ e * i.scale * (10 : ℚ) ^ (-e).toNat := by
    rw [← ten_zpow e]
    ring
  have hl : (i.low : ℚ) * (10 : ℚ) ^ (-e).toNat ≤ d * (10 : ℚ) ^ e.toNat * i.scale := by exact_mod_cast hle.1
  have hh : (d : ℚ) * (10 : ℚ) ^ e.toNat * i.scale ≤ i.high * (10 : ℚ) ^ (-e).toNat := by exact_mod_cast hle.2
  rw [hq] at hl hh
  exact ⟨le_of_mul_le_mul_right hl hpos, le_of_mul_le_mul_right hh hpos⟩

theorem onGrid_covers {e : Int} {d : Nat} (h : i.onGrid e = some d) : i.Covers (d * 10 ^ e) := by
  unfold onGrid at h
  simp only at h
  split at h
  · next hb ha =>
    cases h
    split
    · exact covers_of_mem hb
    · exact covers_of_mem ha
  · next hb _ => cases h; exact covers_of_mem hb
  · next _ ha => cases h; exact covers_of_mem ha
  · cases h

/-- One of the two neighbours of the value is in the interval where the interval is wider than the grid. -/
theorem onGrid_isSome {e : Int} (hl : i.low < i.value) (hh : i.value < i.high) (hs : 0 < i.scale)
    (h : (10 : ℚ) ^ e * i.scale < i.high - i.low) : (i.onGrid e).isSome = true := by
  have hden : 0 < 10 ^ (-e).toNat := Nat.pow_pos (by omega)
  have hup : 0 < 10 ^ e.toNat := Nat.pow_pos (by omega)
  have hwide : i.low * 10 ^ (-e).toNat + 10 ^ e.toNat * i.scale < i.high * 10 ^ (-e).toNat := by
    have hpos : (0 : ℚ) < (10 : ℚ) ^ (-e).toNat := by positivity
    have hlt := mul_lt_mul_of_pos_right h hpos
    have hq : (10 : ℚ) ^ e * i.scale * (10 : ℚ) ^ (-e).toNat = (10 : ℚ) ^ e.toNat * i.scale := by
      rw [← ten_zpow e]
      ring
    rw [hq] at hlt
    have : (i.low : ℚ) * (10 : ℚ) ^ (-e).toNat + (10 : ℚ) ^ e.toNat * i.scale < i.high * (10 : ℚ) ^ (-e).toNat := by
      linarith
    exact_mod_cast this
  have hlow := Nat.mul_lt_mul_of_pos_right hl hden
  have hhigh := Nat.mul_lt_mul_of_pos_right hh hden
  have hunit : 0 < i.scale * 10 ^ e.toNat := Nat.mul_pos hs hup
  have hdiv := Nat.div_mul_le_self (i.value * 10 ^ (-e).toNat) (i.scale * 10 ^ e.toNat)
  have hmod := Nat.lt_div_mul_add hunit (a := i.value * 10 ^ (-e).toNat)
  have hor : i.mem (i.value * 10 ^ (-e).toNat / (i.scale * 10 ^ e.toNat) * 10 ^ e.toNat) (10 ^ (-e).toNat) = true ∨
      i.mem ((i.value * 10 ^ (-e).toNat / (i.scale * 10 ^ e.toNat) + 1) * 10 ^ e.toNat) (10 ^ (-e).toNat) = true := by
    generalize i.value * 10 ^ (-e).toNat / (i.scale * 10 ^ e.toNat) = d at *
    have hd : d * 10 ^ e.toNat * i.scale = d * (i.scale * 10 ^ e.toNat) := by ring
    have hd' : (d + 1) * 10 ^ e.toNat * i.scale = d * (i.scale * 10 ^ e.toNat) + i.scale * 10 ^ e.toNat := by ring
    rw [Nat.mul_comm (10 ^ e.toNat)] at hwide
    unfold mem
    rw [hd, hd']
    split <;> simp only [Bool.and_eq_true, decide_eq_true_eq] <;> omega
  unfold onGrid
  simp only
  split
  · rfl
  · rfl
  · rfl
  · next hb ha => simp [hb, ha] at hor

theorem search_covers {e : Int} {n : Nat} (h : (i.onGrid (e - n)).isSome = true) : i.Covers (i.search e n).value := by
  induction n generalizing e with
  | zero =>
    obtain ⟨d, hd⟩ := Option.isSome_iff_exists.mp h
    rw [Nat.cast_zero, sub_zero] at hd
    rw [search, hd]
    exact onGrid_covers hd
  | succ n ih =>
    rw [search]
    split
    · next d hd => exact onGrid_covers hd
    · refine ih ?_
      rwa [Nat.cast_succ, sub_add_eq_sub_sub_swap] at h

theorem magnitude_le {e : Int} (h : (10 : ℚ) ^ e * i.scale ≤ i.value) (n : Nat) :
    (10 : ℚ) ^ i.magnitude e n * i.scale ≤ i.value := by
  induction n generalizing e with
  | zero => exact h
  | succ n ih =>
    rw [magnitude]
    split
    · exact h
    · next hlt =>
      refine ih ?_
      have hle : (i.scale : ℚ) * (10 : ℚ) ^ (e + 1).toNat ≤ i.value * (10 : ℚ) ^ (-(e + 1)).toNat := by
        exact_mod_cast Nat.le_of_not_lt hlt
      rw [← ten_zpow (e + 1)] at hle
      have hpos : (0 : ℚ) < (10 : ℚ) ^ (-(e + 1)).toNat := by positivity
      refine le_of_mul_le_mul_right ?_ hpos
      linarith

end Interval

/-! ## Trailing zeros -/

theorem trim_value (s : Scaled) (n : Nat) : (s.trim n).value = s.value := by
  induction n generalizing s with
  | zero => rfl
  | succ n ih =>
    rw [Scaled.trim]
    split
    · next h =>
      simp only [Bool.and_eq_true, beq_iff_eq] at h
      rw [ih]
      have hd : (s.digits : ℚ) = (s.digits / 10 : Nat) * 10 := by
        have : s.digits = s.digits / 10 * 10 := by omega
        exact_mod_cast this
      rw [Scaled.value, Scaled.value, zpow_add_one₀ (by norm_num), hd]
      ring
    · rfl

/-! ## Digits of a double -/

/-- What is found to be the least exponent is not too great: `30103 / 100000` is close to the logarithm of two. -/
theorem floor_le {e : Int} (hl : -1074 ≤ e) (hh : e ≤ 971) : (10 : ℚ) ^ ((e + 52) * 30103 / 100000 - 18) ≤ 2 ^ e := by
  obtain ⟨q, hq⟩ : ∃ q, q = (e + 52) * 30103 / 100000 - 18 := ⟨_, rfl⟩
  rw [← hq]
  rcases lt_or_ge e 0 with he | he
  · -- two to the power of 93 is less than ten to the power of 28
    have h : ((10 : ℚ) ^ q) ^ 93 ≤ ((2 : ℚ) ^ e) ^ 93 := by
      calc ((10 : ℚ) ^ q) ^ 93 = (10 : ℚ) ^ (q * 93) := by rw [← zpow_natCast, ← zpow_mul]; rfl
        _ ≤ (10 : ℚ) ^ (28 * e) := zpow_le_zpow_right₀ (by norm_num) (by omega)
        _ = ((10 : ℚ) ^ 28) ^ e := by rw [zpow_mul]; rfl
        _ ≤ ((2 : ℚ) ^ 93) ^ e := by
          rw [show e = -((-e).toNat : Int) by omega, zpow_neg, zpow_neg, zpow_natCast, zpow_natCast]
          exact inv_anti₀ (by positivity) (pow_le_pow_left₀ (by norm_num) (by norm_num) _)
        _ = ((2 : ℚ) ^ e) ^ 93 := by rw [← zpow_natCast, ← zpow_natCast, zpow_comm]
    exact le_of_pow_le_pow_left₀ (by norm_num) (by positivity) h
  · have h : ((10 : ℚ) ^ q) ^ 10 ≤ ((2 : ℚ) ^ e) ^ 10 := by
      calc ((10 : ℚ) ^ q) ^ 10 = (10 : ℚ) ^ (q * 10) := by rw [← zpow_natCast, ← zpow_mul]; rfl
        _ ≤ (10 : ℚ) ^ (3 * e) := zpow_le_zpow_right₀ (by norm_num) (by omega)
        _ = ((10 : ℚ) ^ 3) ^ e := by rw [zpow_mul]; rfl
        _ ≤ ((2 : ℚ) ^ 10) ^ e := zpow_le_zpow_left₀ he (by norm_num) (by norm_num)
        _ = ((2 : ℚ) ^ e) ^ 10 := by rw [← zpow_natCast, ← zpow_natCast, zpow_comm]
    exact le_of_pow_le_pow_left₀ (by norm_num) (by positivity) h

theorem two_zpow (e : Int) : ((2 ^ e.toNat : Nat) : ℚ) = 2 ^ e * (2 ^ (-e).toNat : Nat) := by
  push_cast
  rw [← zpow_natCast, ← zpow_natCast, ← zpow_add₀ (by norm_num)]
  congr 1
  omega

namespace Interval

variable {m : Nat} {e : Int} {narrow : Bool}

theorem ofBinary_high (m : Nat) (e : Int) (narrow : Bool) :
    (ofBinary m e narrow).high = (ofBinary m e narrow).value + 2 * 2 ^ (e - 2).toNat := by
  change (4 * m + 2) * _ = 4 * m * _ + _
  rw [← Nat.add_mul]

/-- The lower end is as far away as the upper one, or half as far below a power of two. -/
theorem ofBinary_low (hm : 0 < m) (hn : narrow = true → m = 2 ^ 52) :
    ∃ k, (k = 1 ∧ m = 2 ^ 52 ∨ k = 2) ∧
      (ofBinary m e narrow).low + k * 2 ^ (e - 2).toNat = (ofBinary m e narrow).value := by
  cases narrow with
  | true =>
    refine ⟨1, .inl ⟨rfl, hn rfl⟩, ?_⟩
    simp only [ofBinary, ite_true]
    rw [← Nat.add_mul]
    congr 1
    omega
  | false =>
    refine ⟨2, .inr rfl, ?_⟩
    simp only [ofBinary, Bool.false_eq_true, ite_false]
    rw [← Nat.add_mul]
    congr 1
    omega

theorem ofBinary_value (m : Nat) (e : Int) (narrow : Bool) :
    ((ofBinary m e narrow).value : ℚ) = m * 2 ^ e * (ofBinary m e narrow).scale := by
  have h := two_zpow (e - 2)
  rw [neg_sub, zpow_sub₀ (by norm_num), div_mul_eq_mul_div, eq_div_iff (by norm_num)] at h
  have hvalue : (ofBinary m e narrow).value = 4 * m * 2 ^ (e - 2).toNat := rfl
  have hscale : (ofBinary m e narrow).scale = 2 ^ (2 - e).toNat := rfl
  rw [hvalue, hscale, mul_assoc (m : ℚ), ← h]
  push_cast
  ring

theorem ofBinary_magnitude_le (narrow : Bool) (hm : 0 < m) (hl : -1074 ≤ e) (hh : e ≤ 971) :
    (10 : ℚ) ^ (ofBinary m e narrow).magnitude ((e + 52) * 30103 / 100000 - 18) 40 * (ofBinary m e narrow).scale ≤
      (ofBinary m e narrow).value := by
  refine magnitude_le ?_ 40
  rw [ofBinary_value]
  refine mul_le_mul_of_nonneg_right ((floor_le hl hh).trans ?_) (Nat.cast_nonneg _)
  exact le_mul_of_one_le_left (by positivity) (Nat.one_le_cast.mpr hm)

/-- The interval of a double as far as the search needs it: seventeen digits are enough. -/
theorem search_ofBinary (hm : 0 < m) (hlt : m < 2 ^ 53) (hn : narrow = true → m = 2 ^ 52) (hl : -1074 ≤ e)
    (hh : e ≤ 971) :
    (ofBinary m e narrow).Covers ((ofBinary m e narrow).search
      ((ofBinary m e narrow).magnitude ((e + 52) * 30103 / 100000 - 18) 40) 16).value := by
  have htop := ofBinary_magnitude_le narrow hm hl hh
  have hs : 0 < (ofBinary m e narrow).scale := Nat.two_pow_pos _
  have hu : 0 < 2 ^ (e - 2).toNat := Nat.two_pow_pos _
  have hvalue : (ofBinary m e narrow).value = 4 * m * 2 ^ (e - 2).toNat := rfl
  have hhigh := ofBinary_high m e narrow
  obtain ⟨k, hk, hlow⟩ := ofBinary_low (e := e) hm hn
  generalize ofBinary m e narrow = i at *
  generalize i.magnitude ((e + 52) * 30103 / 100000 - 18) 40 = top at htop
  have hgrid := Nat.mul_pos (show 0 < k by omega) hu
  refine search_covers (onGrid_isSome (by omega) (by omega) hs ?_)
  have hwide : i.value < (2 + k) * 2 ^ (e - 2).toNat * 10 ^ 16 := by
    rw [hvalue, Nat.mul_right_comm (2 + k)]
    exact Nat.mul_lt_mul_of_pos_right (by omega) hu
  have hgap : (i.high : ℚ) - i.low = ((2 + k) * 2 ^ (e - 2).toNat : Nat) := by
    have : i.high = i.low + (2 + k) * 2 ^ (e - 2).toNat := by rw [hhigh, ← hlow]; ring
    rw [this]
    push_cast
    ring
  rw [hgap, zpow_sub₀ (by norm_num), div_mul_eq_mul_div, div_lt_iff₀ (by norm_num)]
  exact htop.trans_lt (by exact_mod_cast hwide)

end Interval

theorem binaryParts_unpack {y : Float.Model} {s : Sign} {m : Nat} {e : Int} {hm : 0 < m}
    (h : y.unpack = .finite s m e hm) :
    (binaryParts y.toBits).1 = m ∧ (binaryParts y.toBits).2.1 = e ∧
      ((binaryParts y.toBits).2.2 = true → m = 2 ^ 52) ∧ m < 2 ^ 53 ∧ -1074 ≤ e ∧ e ≤ 971 := by
  have hlt : (@unpackMantissa Format.binary64 y.toBits.toBitVec).toNat < 2 ^ 52 :=
    (@unpackMantissa Format.binary64 y.toBits.toBitVec).isLt
  have hfield : (y.toBits >>> 52).toNat % 2048 = (@unpackExponent Format.binary64 y.toBits.toBitVec).toNat := by
    simp [unpackExponent, BitVec.extractLsb, UInt64.toNat_shiftRight, Nat.shiftRight_eq_div_pow]
  have hfraction : y.toBits.toNat % 2 ^ 52 = (@unpackMantissa Format.binary64 y.toBits.toBitVec).toNat := by
    simp [unpackMantissa, BitVec.extractLsb]
  unfold binaryParts
  simp only [hfield, hfraction]
  rcases Rounding.unpack_finite h with ⟨hzero, rfl, rfl⟩ | ⟨hl, hh, rfl, rfl⟩
  · rw [if_pos hzero]
    exact ⟨rfl, rfl, nofun, by omega, by omega, by omega⟩
  · rw [if_neg (by omega)]
    refine ⟨rfl, rfl, fun hn => ?_, by omega, by omega, by omega⟩
    simp only [Bool.and_eq_true, beq_iff_eq] at hn
    omega

theorem shortest_eq {x : Float} {s : Sign} {m : Nat} {e : Int} {hm : 0 < m} (h : x.toModel.unpack = .finite s m e hm) :
    ∃ narrow : Bool, (narrow = true → m = 2 ^ 52) ∧ shortest x = ((Interval.ofBinary m e narrow).search
      ((Interval.ofBinary m e narrow).magnitude ((e + 52) * 30103 / 100000 - 18) 40) 16).trim 17 := by
  obtain ⟨rfl, rfl, hn, -⟩ := binaryParts_unpack h
  exact ⟨_, hn, rfl⟩

/-- The digits stand for a number that is no more than half a unit greater than the double. -/
theorem shortest_le {x : Float} {s : Sign} {m : Nat} {e : Int} {hm : 0 < m} (h : x.toModel.unpack = .finite s m e hm) :
    0 < (shortest x).digits ∧ (shortest x).value ≤ (2 * m + 1) * 2 ^ (e - 1) := by
  obtain ⟨-, -, -, hlt, hl, hh⟩ := binaryParts_unpack h
  obtain ⟨narrow, hn, heq⟩ := shortest_eq h
  obtain ⟨hlow, hhigh⟩ := Interval.search_ofBinary hm hlt hn hl hh
  have hs : (0 : ℚ) < (Interval.ofBinary m e narrow).scale := Nat.cast_pos.mpr (Nat.two_pow_pos _)
  have hscale : (Interval.ofBinary m e narrow).scale = 2 ^ (-(e - 2)).toNat := by rw [neg_sub]; rfl
  have hval : (shortest x).value = ((Interval.ofBinary m e narrow).search
      ((Interval.ofBinary m e narrow).magnitude ((e + 52) * 30103 / 100000 - 18) 40) 16).value := by
    rw [heq, trim_value]
  rw [← hval] at hlow hhigh
  constructor
  · refine Nat.pos_of_ne_zero fun hz => ?_
    have hpos : 0 < (Interval.ofBinary m e narrow).low := by
      refine Nat.mul_pos ?_ (Nat.two_pow_pos _)
      split <;> omega
    rw [Scaled.value, hz, Nat.cast_zero, zero_mul, zero_mul] at hlow
    exact absurd (Nat.cast_pos.mpr hpos) (not_lt_of_ge hlow)
  · have hup : ((Interval.ofBinary m e narrow).high : ℚ) =
        (2 * m + 1) * 2 ^ (e - 1) * (Interval.ofBinary m e narrow).scale := by
      have h := two_zpow (e - 2)
      have he : (2 : ℚ) ^ (e - 1) = 2 * 2 ^ (e - 2) := by
        rw [← zpow_one_add₀ (by norm_num)]
        congr 1
        omega
      rw [hscale, he]
      simp only [Interval.ofBinary, Nat.cast_mul, h]
      push_cast
      ring
    rw [hup] at hhigh
    exact le_of_mul_le_mul_right hhigh hs

end Courier.Decimal

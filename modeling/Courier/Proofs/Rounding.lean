import Courier.Arithmetic
import Mathlib.Algebra.Order.Field.Power
import Mathlib.Algebra.Order.Field.Rat
import Mathlib.Data.Nat.Log
import Mathlib.Tactic.FieldSimp
import Mathlib.Tactic.Linarith
import Mathlib.Tactic.Positivity
import Mathlib.Tactic.Ring

/-!
# Rounding of doubles

A result of at least 53 bits is cut to 53 bits and rounded to the nearest double. What comes out is at most half a
unit in the last place greater than what went in, and it is finite unless what went in is beyond the last double.
-/

namespace Courier.Rounding

open Float.Model Float.Model.UnpackedFloat

/-! ## Bits that are shifted out -/

/-- How what was shifted out stands to half of what is lost at most. -/
def Lost (em : ExtendedMantissa) (unit rest : Nat) : Prop :=
  match em.roundBit, em.stickyBit with
  | false, false => rest = 0
  | false, true => 0 < rest ∧ 2 * rest < unit
  | true, false => 2 * rest = unit
  | true, true => unit < 2 * rest ∧ rest < unit

theorem shiftRight_succ (em : ExtendedMantissa) (n : Nat) : em >>> (n + 1) = (em >>> n).shiftRightOne := rfl

theorem lost_shiftRightOne {em : ExtendedMantissa} {unit rest : Nat} (h : Lost em unit rest) (hu : 0 < unit) :
    Lost em.shiftRightOne (unit * 2) (em.mantissa % 2 * unit + rest) := by
  obtain ⟨m, r, s⟩ := em
  have hm : m % 2 = 0 ∨ m % 2 = 1 := by omega
  cases r <;> cases s <;> rcases hm with hm | hm <;>
    simp only [Lost, ExtendedMantissa.shiftRightOne, hm] at h ⊢ <;> simp <;> omega

theorem lost_shiftRight {em : ExtendedMantissa} {unit rest : Nat} (h : Lost em unit rest) (hu : 0 < unit) (n : Nat) :
    ∃ rest', em.mantissa * unit + rest = (em >>> n).mantissa * (unit * 2 ^ n) + rest' ∧
      Lost (em >>> n) (unit * 2 ^ n) rest' := by
  induction n with
  | zero => exact ⟨rest, by rw [Nat.pow_zero, Nat.mul_one]; rfl, by rw [Nat.pow_zero, Nat.mul_one]; exact h⟩
  | succ n ih =>
    obtain ⟨rest', hm, hl⟩ := ih
    rw [shiftRight_succ]
    generalize em >>> n = em' at hm hl
    have hu' := Nat.mul_pos hu (Nat.two_pow_pos n)
    refine ⟨em'.mantissa % 2 * (unit * 2 ^ n) + rest', ?_, ?_⟩
    · calc em.mantissa * unit + rest = em'.mantissa * (unit * 2 ^ n) + rest' := hm
        _ = (em'.mantissa / 2 * 2 + em'.mantissa % 2) * (unit * 2 ^ n) + rest' := by rw [Nat.div_add_mod']
        _ = em'.mantissa / 2 * (unit * 2 ^ (n + 1)) + (em'.mantissa % 2 * (unit * 2 ^ n) + rest') := by ring
    · rw [Nat.pow_succ, ← Nat.mul_assoc]
      exact lost_shiftRightOne hl hu'

theorem shiftRight_lost (m n : Nat) :
    ∃ rest, m = ((⟨m, false, false⟩ : ExtendedMantissa) >>> n).mantissa * 2 ^ n + rest ∧
      Lost ((⟨m, false, false⟩ : ExtendedMantissa) >>> n) (2 ^ n) rest := by
  have h : Lost ⟨m, false, false⟩ 1 0 := rfl
  obtain ⟨rest, hm, hl⟩ := lost_shiftRight h Nat.one_pos n
  rw [Nat.one_mul] at hm hl
  exact ⟨rest, by simpa using hm, hl⟩

/-- The mantissa is rounded up by half a unit at most. -/
theorem roundedMantissa_le (m n : Nat) :
    2 * (((⟨m, false, false⟩ : ExtendedMantissa) >>> n).roundedMantissa * 2 ^ n) ≤ 2 * m + 2 ^ n ∧
      m < (((⟨m, false, false⟩ : ExtendedMantissa) >>> n).roundedMantissa + 1) * 2 ^ n := by
  obtain ⟨rest, hm, hl⟩ := shiftRight_lost m n
  generalize (⟨m, false, false⟩ : ExtendedMantissa) >>> n = em at hm hl
  obtain ⟨q, r, s⟩ := em
  have hu := Nat.two_pow_pos n
  generalize 2 ^ n = unit at *
  subst hm
  cases r <;> cases s <;>
    simp only [Lost, ExtendedMantissa.roundedMantissa, ExtendedMantissa.accuracy, Accuracy.roundToNearestEven,
      Nat.add_mul, Nat.one_mul] at hl ⊢
  · omega
  · omega
  · rcases Nat.mod_two_eq_zero_or_one q with hq | hq <;> rw [hq] <;> omega
  · omega

/-! ## A rounded result -/

/-- The least number that is rounded to infinity: half a unit more than the last double. -/
def limit : ℚ := (2 ^ 54 - 1) * 2 ^ (970 : Int)

theorem limit_lt : limit < 2 ^ (1024 : Int) := by
  have hpos : (0 : ℚ) < 2 ^ (970 : Int) := zpow_pos (by norm_num) _
  calc limit < 2 ^ 54 * 2 ^ (970 : Int) := mul_lt_mul_of_pos_right (by norm_num) hpos
    _ = 2 ^ ((54 : Nat) + 970 : Int) := by rw [zpow_add₀ (by norm_num), zpow_natCast]

theorem cast_lt_limit {m : Nat} (h : m < (2 ^ 54 - 1) * 2 ^ 970) : (m : ℚ) < limit := by
  have hc : ((2 ^ 54 - 1 : Nat) : ℚ) = 2 ^ 54 - 1 := by norm_num
  have hlt : (m : ℚ) < ((2 ^ 54 - 1) * 2 ^ 970 : Nat) := Nat.cast_lt.mpr h
  simp only [Nat.cast_mul, Nat.cast_pow, Nat.cast_ofNat, hc] at hlt
  exact hlt

/-- Half a unit above a double there is some way to the limit, but for the last two doubles. -/
theorem half_above_le {m : Nat} {e : Int} (hm : m < 2 ^ 53) (he : e ≤ 971) (h : ¬ (2 ^ 53 - 2 ≤ m ∧ e = 971)) :
    (2 * m + 1) * (2 : ℚ) ^ (e - 1) ≤ (2 ^ 54 - 5) * 2 ^ (970 : Int) := by
  rcases eq_or_ne e 971 with rfl | hne
  · have hle : 2 * m + 6 ≤ 2 ^ 54 := by omega
    have hq : (2 * m + 1 : ℚ) ≤ 2 ^ 54 - 5 := by
      have : (2 * m + 6 : ℚ) ≤ 2 ^ 54 := by exact_mod_cast hle
      linarith
    exact mul_le_mul_of_nonneg_right hq (zpow_nonneg (by norm_num) _)
  · have hq : (2 * m + 1 : ℚ) ≤ 2 ^ 54 := by
      have hle : 2 * m + 1 ≤ 2 ^ 54 := by omega
      exact_mod_cast hle
    have hpow : (2 : ℚ) ^ (e - 1) ≤ 2 ^ (969 : Int) := zpow_le_zpow_right₀ (by norm_num) (by omega)
    calc (2 * m + 1 : ℚ) * (2 : ℚ) ^ (e - 1) ≤ 2 ^ 54 * (2 : ℚ) ^ (969 : Int) :=
          mul_le_mul hq hpow (zpow_nonneg (by norm_num) _) (by norm_num)
      _ ≤ (2 ^ 54 - 5) * 2 * (2 : ℚ) ^ (969 : Int) :=
          mul_le_mul_of_nonneg_right (by norm_num) (zpow_nonneg (by norm_num) _)
      _ = (2 ^ 54 - 5 : ℚ) * (2 : ℚ) ^ (970 : Int) := by
        rw [mul_assoc, ← zpow_one_add₀ (by norm_num)]
        rfl

/-- A mantissa of 53 bits and an exponent, little above a number if at all. -/
structure Near (q : ℚ) (f : Nat) (x : Int) : Prop where
  low : 2 ^ 52 ≤ f
  high : f < 2 ^ 53
  above : f * (2 : ℚ) ^ x * 2 ^ 53 ≤ q * (2 ^ 53 + 1)
  finite : q < limit → x ≤ 971

theorem log2_eq {f : Nat} (hl : 2 ^ 52 ≤ f) (hh : f < 2 ^ 53) : f.log2 = 52 :=
  (Nat.log2_eq_iff (by omega)).mpr ⟨hl, hh⟩

theorem targetExponent_max (e : Int) : Format.binary64.targetExponent e = max (e - 53) (-1074) := rfl

theorem targetExponent_eq {m : Nat} {e : Int} (hm : 52 ≤ m.log2) (he : -1074 ≤ e) :
    Format.binary64.targetExponent (totalExponent m e) = e + (m.log2 - 52 : Nat) := by
  rw [targetExponent_max, totalExponent]
  omega

theorem shiftToTargetExponent_eq {m : Nat} {e : Int} (hm : 52 ≤ m.log2) (he : -1074 ≤ e) (acc : Accuracy) :
    shiftToTargetExponent Format.binary64 m e acc =
      (ExtendedMantissa.ofMantissaAndAccuracy m acc >>> (m.log2 - 52), e + (m.log2 - 52 : Nat)) := by
  simp only [shiftToTargetExponent, shiftToExponent, targetExponent_eq hm he, add_sub_cancel_left, Int.toNat_natCast]

theorem zpow_split (e : Int) (n : Nat) : (2 : ℚ) ^ (e + n) = 2 ^ n * 2 ^ e := by
  rw [zpow_add₀ (by norm_num), zpow_natCast, mul_comm]

/-- What is made of a rounded mantissa, which may have got a bit more. -/
def carry (s : Sign) (r : Nat) (x : Int) : UnpackedFloat :=
  let (em, y) := shiftToTargetExponent Format.binary64 r x .exact
  if h : em.mantissa = 0 then .zero s else .finite s em.mantissa y (Nat.pos_of_ne_zero h)

theorem carry_fits (s : Sign) {r : Nat} {x : Int} (hl : 2 ^ 52 ≤ r) (hh : r < 2 ^ 53) (hx : -1074 ≤ x) :
    carry s r x = .finite s r x (by omega) := by
  have h := shiftToTargetExponent_eq (m := r) (e := x) (by rw [log2_eq hl hh]) hx .exact
  rw [log2_eq hl hh, Nat.sub_self, Nat.cast_zero, add_zero] at h
  unfold carry
  rw [h]
  exact dif_neg (show ¬ r = 0 by omega)

theorem carry_over (s : Sign) {x : Int} (hx : -1074 ≤ x) :
    carry s (2 ^ 53) x = .finite s (2 ^ 52) (x + 1) (by omega) := by
  have h := shiftToTargetExponent_eq (m := 2 ^ 53) (e := x) (by rw [Nat.log2_two_pow]; omega) hx .exact
  rw [Nat.log2_two_pow] at h
  unfold carry
  rw [h]
  exact dif_neg (show ¬ 2 ^ 52 = 0 by omega)

/-- What is left of a mantissa of 53 bits or more when all bits behind the first 53 are rounded away. -/
structure Shortened (m n r : Nat) : Prop where
  enough : 2 ^ 52 * 2 ^ n ≤ m
  above : 2 * (r * 2 ^ n) ≤ 2 * m + 2 ^ n
  low : 2 ^ 52 ≤ r
  high : r ≤ 2 ^ 53

theorem shortened_roundedMantissa {m : Nat} (hm : 2 ^ 52 ≤ m) :
    Shortened m (m.log2 - 52) ((⟨m, false, false⟩ : ExtendedMantissa) >>> (m.log2 - 52)).roundedMantissa := by
  have hlog : 52 ≤ m.log2 := (Nat.le_log2 (by omega)).mpr hm
  obtain ⟨n, hn⟩ : ∃ n, n = m.log2 - 52 := ⟨_, rfl⟩
  have hlow : 2 ^ 52 * 2 ^ n ≤ m := by
    rw [← Nat.pow_add, show 52 + n = m.log2 by omega]
    exact Nat.log2_self_le (by omega)
  have hhigh : m < 2 ^ 53 * 2 ^ n := by
    rw [← Nat.pow_add, show 53 + n = m.log2 + 1 by omega]
    exact Nat.lt_log2_self
  obtain ⟨hup, hdown⟩ := roundedMantissa_le m n
  rw [← hn]
  generalize ((⟨m, false, false⟩ : ExtendedMantissa) >>> n).roundedMantissa = r at hup hdown
  have hunit := Nat.two_pow_pos n
  refine ⟨hlow, hup, ?_, ?_⟩
  · have := Nat.lt_of_mul_lt_mul_right (Nat.lt_of_le_of_lt hlow hdown)
    omega
  · by_contra hgt
    have := Nat.mul_le_mul_right (2 ^ n) (show 2 ^ 53 + 1 ≤ r by omega)
    rw [Nat.add_mul] at this
    omega

namespace Shortened

variable {m n r : Nat} {e : Int}

theorem near (h : Shortened m n r) (e : Int) :
    (r : ℚ) * 2 ^ (e + n) * 2 ^ 53 ≤ m * 2 ^ e * (2 ^ 53 + 1) := by
  have hpos : (0 : ℚ) < 2 ^ e := zpow_pos (by norm_num) e
  have h₁ : (2 : ℚ) * (r * 2 ^ n) ≤ 2 * m + 2 ^ n := by exact_mod_cast h.above
  have h₂ : (2 : ℚ) ^ 52 * 2 ^ n ≤ m := by exact_mod_cast h.enough
  have h₃ : (r : ℚ) * 2 ^ n * 2 ^ 53 ≤ m * (2 ^ 53 + 1) := by linarith
  have := mul_le_mul_of_nonneg_right h₃ hpos.le
  rw [zpow_split]
  linarith

theorem exponent_le (h : Shortened m n r) (hlt : (m : ℚ) * 2 ^ e < limit) : e + n ≤ 971 := by
  have h₁ : (2 : ℚ) ^ 52 * 2 ^ n * 2 ^ e ≤ m * 2 ^ e :=
    mul_le_mul_of_nonneg_right (by exact_mod_cast h.enough) (zpow_nonneg (by norm_num) e)
  have h₂ : (2 : ℚ) ^ (e + (52 + n : Nat)) < 2 ^ (1024 : Int) := by
    rw [zpow_split, pow_add]
    exact (h₁.trans_lt hlt).trans limit_lt
  have := (zpow_lt_zpow_iff_right₀ (show (1 : ℚ) < 2 by norm_num)).mp h₂
  omega

/-- A mantissa that gets one more bit by its rounding is further from the limit. -/
theorem exponent_lt (h : Shortened m n (2 ^ 53)) (hlt : (m : ℚ) * 2 ^ e < limit) : e + n < 971 := by
  have h₁ : (2 : ℚ) * (2 ^ 53 * 2 ^ n) ≤ 2 * m + 2 ^ n := by exact_mod_cast h.above
  have h₂ : (2 : ℚ) ^ (e + n) < 2 ^ (970 + 1 : Int) := by
    have h := mul_le_mul_of_nonneg_right h₁ (zpow_nonneg (show (0 : ℚ) ≤ 2 by norm_num) e)
    rw [limit] at hlt
    rw [zpow_split, zpow_add_one₀ (by norm_num)]
    refine lt_of_mul_lt_mul_left (a := 2 ^ 54 - 1) ?_ (by norm_num)
    linarith
  have := (zpow_lt_zpow_iff_right₀ (show (1 : ℚ) < 2 by norm_num)).mp h₂
  omega

end Shortened

/-- A mantissa of 53 bits or more is rounded to one of 53 bits. -/
theorem roundWithAccuracy_near (s : Sign) {m : Nat} {e : Int} (hm : 2 ^ 52 ≤ m) (he : -1074 ≤ e) :
    ∃ f x hf, roundWithAccuracy Format.binary64 s m e .exact = .finite s f x hf ∧ Near (m * 2 ^ e) f x ∧
      e ≤ x := by
  have hshort := shortened_roundedMantissa hm
  have heq : roundWithAccuracy Format.binary64 s m e .exact =
      carry s ((⟨m, false, false⟩ : ExtendedMantissa) >>> (m.log2 - 52)).roundedMantissa
        (e + (m.log2 - 52 : Nat)) := by
    unfold roundWithAccuracy
    rw [shiftToTargetExponent_eq ((Nat.le_log2 (by omega)).mpr hm) he]
    rfl
  generalize ((⟨m, false, false⟩ : ExtendedMantissa) >>> (m.log2 - 52)).roundedMantissa = r at hshort heq
  generalize m.log2 - 52 = n at hshort heq
  have hlow := hshort.low
  have hq := hshort.near e
  rcases Nat.lt_or_ge r (2 ^ 53) with hr | hr
  · exact ⟨r, e + n, by omega, heq.trans (carry_fits s hlow hr (by omega)),
      ⟨hlow, hr, hq, fun hlt => hshort.exponent_le hlt⟩, by omega⟩
  · obtain rfl : r = 2 ^ 53 := Nat.le_antisymm hshort.high hr
    refine ⟨2 ^ 52, e + n + 1, by omega, heq.trans (carry_over s (by omega)), ⟨by omega, by omega, ?_, fun hlt => ?_⟩,
      by omega⟩
    · rw [zpow_add_one₀ (by norm_num)]
      push_cast at hq ⊢
      linarith
    · exact hshort.exponent_lt hlt

/-! ## Packing -/

/-- What the fields of a double say about its mantissa and its exponent, if it is finite. -/
def Fields (b : BitVec Format.binary64.numBits) (m : Nat) (e : Int) : Prop :=
  (unpackExponent b).toNat = 0 ∧ m = (unpackMantissa b).toNat ∧ e = -1074 ∨
    0 < (unpackExponent b).toNat ∧ (unpackExponent b).toNat < 2047 ∧ m = 2 ^ 52 + (unpackMantissa b).toNat ∧
      e = (unpackExponent b).toNat - 1075

theorem unpack_finite {b : BitVec Format.binary64.numBits} {s : Sign} {m : Nat} {e : Int} {hm : 0 < m}
    (h : UnpackedFloat.unpack Format.binary64 b = .finite s m e hm) : Fields b m e := by
  have hlt := (@unpackMantissa Format.binary64 b).isLt
  have hb := (@unpackExponent Format.binary64 b).isLt
  unfold UnpackedFloat.unpack at h
  dsimp only at h
  by_cases hinf : @unpackExponent Format.binary64 b = -1#_
  · rw [if_pos hinf] at h
    by_cases hz : @unpackMantissa Format.binary64 b = 0#_
    · rw [if_pos hz] at h
      cases h
    · rw [if_neg hz] at h
      cases h
  · rw [if_neg hinf] at h
    by_cases hzero : @unpackExponent Format.binary64 b = 0#_
    · rw [if_pos hzero] at h
      by_cases hz : @unpackMantissa Format.binary64 b = 0#_
      · rw [dif_pos hz] at h
        cases h
      · rw [dif_neg hz] at h
        cases h
        refine .inl ⟨by rw [hzero]; rfl, rfl, ?_⟩
        rw [hzero]
        rfl
    · rw [if_neg hzero] at h
      cases h
      refine .inr ⟨?_, ?_, ?_, ?_⟩
      · exact Nat.pos_of_ne_zero fun hz => hzero (BitVec.eq_of_toNat_eq hz)
      · have : (@unpackExponent Format.binary64 b).toNat ≠ 2047 := fun hz => hinf (BitVec.eq_of_toNat_eq hz)
        change _ < 2 ^ 11 at hb
        omega
      · rw [BitVec.toNat_append, ← Nat.shiftLeft_add_eq_or_of_lt hlt]
        rfl
      · simp [Format.exponentBias]

theorem Fields.unpack {b : BitVec Format.binary64.numBits} {m : Nat} {e : Int} (h : Fields b m e) (hm : 0 < m) :
    ∃ s, UnpackedFloat.unpack Format.binary64 b = .finite s m e hm := by
  have hlt := (@unpackMantissa Format.binary64 b).isLt
  unfold UnpackedFloat.unpack
  dsimp only
  rcases h with ⟨hzero, rfl, rfl⟩ | ⟨hl, hh, hm', he⟩
  · have hexp : @unpackExponent Format.binary64 b = 0#_ := BitVec.eq_of_toNat_eq hzero
    have hinf : @unpackExponent Format.binary64 b ≠ -1#_ := by
      rw [hexp]
      decide
    have hman : @unpackMantissa Format.binary64 b ≠ 0#_ := fun hz => by
      rw [hz] at hm
      cases hm
    rw [if_neg hinf, if_pos hexp, dif_neg hman]
    refine ⟨.ofBitVec (unpackSign b), ?_⟩
    congr 1
    rw [hexp]
    rfl
  · have hinf : @unpackExponent Format.binary64 b ≠ -1#_ := fun hz => by
      rw [hz] at hh
      exact absurd hh (by decide)
    have hexp : @unpackExponent Format.binary64 b ≠ 0#_ := fun hz => by
      rw [hz] at hl
      cases hl
    rw [if_neg hinf, if_neg hexp]
    refine ⟨.ofBitVec (unpackSign b), ?_⟩
    congr 1
    · rw [hm', BitVec.toNat_append, ← Nat.shiftLeft_add_eq_or_of_lt hlt]
      rfl
    · rw [he]
      simp [Format.exponentBias]

/-- A double of 53 bits keeps its mantissa and its exponent. What becomes of its sign is of no concern. -/
theorem unpack_pack (s : Sign) {f : Nat} {x : Int} (hf : 0 < f) (hl : 2 ^ 52 ≤ f) (hh : f < 2 ^ 53) (hx : -1074 ≤ x)
    (hx' : x ≤ 971) : ∃ t, (Float.Model.pack (.finite s f x hf)).unpack = .finite t f x hf := by
  obtain ⟨b, hb⟩ : ∃ b, b = (x + 1075).toNat := ⟨_, rfl⟩
  have hp : UnpackedFloat.pack Format.binary64 (.finite s f x hf) =
      packComponents Format.binary64 s (BitVec.ofNat 11 b) (BitVec.ofNat 52 f) := by
    unfold UnpackedFloat.pack
    simp only [log2_eq hl hh]
    rw [if_neg (by simp [Format.exponentBias]; omega), if_pos (by rfl), hb]
    simp [Format.exponentBias, add_assoc]
  have hm : (BitVec.ofNat 52 f).toNat = f - 2 ^ 52 := by
    rw [BitVec.toNat_ofNat]
    omega
  have he : (BitVec.ofNat 11 b).toNat = b := by
    rw [BitVec.toNat_ofNat]
    omega
  change ∃ t, UnpackedFloat.unpack Format.binary64 (UnpackedFloat.pack Format.binary64 _) = _
  rw [hp]
  refine Fields.unpack (.inr ?_) hf
  rw [unpackExponent_packComponents, unpackMantissa_packComponents]
  change 0 < (BitVec.ofNat 11 b).toNat ∧ (BitVec.ofNat 11 b).toNat < 2047 ∧ f = 2 ^ 52 + (BitVec.ofNat 52 f).toNat ∧
    x = (BitVec.ofNat 11 b).toNat - 1075
  rw [hm, he]
  omega

theorem unpack_pack_subnormal (s : Sign) {f : Nat} (hf : 0 < f) (hh : f < 2 ^ 52) :
    ∃ t, (Float.Model.pack (.finite s f (-1074) hf)).unpack = .finite t f (-1074) hf := by
  have hlog : f.log2 < 52 := (Nat.log2_lt (by omega)).mpr hh
  have hp : UnpackedFloat.pack Format.binary64 (.finite s f (-1074) hf) =
      packComponents Format.binary64 s 0#11 (BitVec.ofNat 52 f) := by
    unfold UnpackedFloat.pack
    dsimp only
    have hbits : ¬f.log2 + 1 = Format.binary64.mantissaBits := by
      change ¬f.log2 + 1 = 53
      omega
    rw [if_neg (by simp [Format.exponentBias]), if_neg hbits]
  have hm : (BitVec.ofNat 52 f).toNat = f := by
    rw [BitVec.toNat_ofNat]
    omega
  change ∃ t, UnpackedFloat.unpack Format.binary64 (UnpackedFloat.pack Format.binary64 _) = _
  rw [hp]
  refine Fields.unpack (.inl ?_) hf
  rw [unpackExponent_packComponents, unpackMantissa_packComponents]
  exact ⟨rfl, hm.symm, rfl⟩

theorem unpack_pack_finite {b : BitVec Format.binary64.numBits} {s : Sign} {m : Nat} {e : Int} {hm : 0 < m}
    (h : UnpackedFloat.unpack Format.binary64 b = .finite s m e hm) (t : Sign) :
    ∃ u, (Float.Model.pack (.finite t m e hm)).unpack = .finite u m e hm := by
  have hlt : (unpackMantissa b).toNat < 2 ^ 52 := (@unpackMantissa Format.binary64 b).isLt
  rcases unpack_finite h with ⟨-, hm', rfl⟩ | ⟨hl, hh, hm', he⟩
  · exact unpack_pack_subnormal t hm (by omega)
  · exact unpack_pack t hm (by omega) (by omega) (by omega) (by omega)

/-! ## Operations -/

theorem ofUInt64_eq {n : UInt64} (h : 0 < n.toNat) :
    UnpackedFloat.ofUInt64 Format.binary64 n =
      roundWithAccuracy Format.binary64 .positive (n.toNat <<< (52 - n.toNat.log2)) (-(52 - n.toNat.log2 : Nat))
        .exact := by
  have hcmp : compare (n.toNat : Int) 0 = .gt := by
    rw [Int.compare_eq_gt]
    omega
  have hd : decreaseExponent n.toNat 0 (Format.binary64.targetExponent (totalExponent n.toNat 0)) =
      (n.toNat <<< (52 - n.toNat.log2), (-(52 - n.toNat.log2 : Nat) : Int)) := by
    have hlog : n.toNat.log2 < 64 := (Nat.log2_lt (by omega)).mpr n.toNat_lt
    have ht : (-Format.binary64.targetExponent (totalExponent n.toNat 0)).toNat = 52 - n.toNat.log2 := by
      rw [targetExponent_max, totalExponent]
      omega
    unfold decreaseExponent
    simp only [zero_sub, ht]
  simp only [UnpackedFloat.ofUInt64, UnpackedFloat.ofNat, UnpackedFloat.ofInt,
    UnpackedFloat.normalize, UnpackedFloat.round, hcmp, Int.toNat_natCast, hd]

theorem toFloat_near {n : UInt64} (h : 0 < n.toNat) :
    ∃ s f x hf, n.toFloat.toModel.unpack = .finite s f x hf ∧ Near n.toNat f x ∧ -52 ≤ x := by
  have hround := ofUInt64_eq h
  obtain ⟨k, hk⟩ : ∃ k, k = 52 - n.toNat.log2 := ⟨_, rfl⟩
  rw [← hk] at hround
  have hm : 2 ^ 52 ≤ n.toNat <<< k := by
    rw [Nat.shiftLeft_eq]
    calc 2 ^ 52 ≤ 2 ^ (n.toNat.log2 + k) := Nat.pow_le_pow_right (by omega) (by omega)
      _ = 2 ^ n.toNat.log2 * 2 ^ k := Nat.pow_add ..
      _ ≤ n.toNat * 2 ^ k := Nat.mul_le_mul_right _ (Nat.log2_self_le (by omega))
  obtain ⟨f, x, hf, heq, hn, hx⟩ := roundWithAccuracy_near .positive hm (e := -k) (by omega)
  have hq : ((n.toNat <<< k : Nat) : ℚ) * 2 ^ (-k : Int) = n.toNat := by
    rw [Nat.shiftLeft_eq, zpow_neg, zpow_natCast]
    push_cast
    field_simp
  rw [hq] at hn
  have hfin : (n.toNat : ℚ) < limit := cast_lt_limit (n.toNat_lt.trans (by decide +kernel))
  obtain ⟨t, ht⟩ := unpack_pack .positive hf hn.low hn.high (by omega) (hn.finite hfin)
  refine ⟨t, f, x, hf, ?_, hn, by omega⟩
  change (Float.Model.pack (UnpackedFloat.ofUInt64 Format.binary64 n)).unpack = _
  rw [hround, heq, ht]

theorem isInf_mul {y z : Float} {s t : Sign} {f g : Nat} {x w : Int} {hf hg}
    (hy : y.toModel.unpack = .finite s f x hf) (hz : z.toModel.unpack = .finite t g w hg) (hl : 2 ^ 52 ≤ f)
    (he : -1074 ≤ x + w) (hlt : f * 2 ^ x * (g * 2 ^ w) < limit) : (y * z).isInf = false := by
  have hlt' : ((f * g : Nat) : ℚ) * 2 ^ (x + w) < limit := by
    rw [zpow_add₀ (by norm_num)]
    push_cast
    linarith
  obtain ⟨r, v, hr, heq, hn, hv⟩ := roundWithAccuracy_near (s * t) (m := f * g) (e := x + w)
    (hl.trans (Nat.le_mul_of_pos_right _ hg)) he
  have hmul : (y * z).toModel = Float.Model.pack (.finite (s * t) r v hr) := by
    rw [← heq]
    change Float.Model.pack (UnpackedFloat.mul _ _ _) = _
    rw [hy, hz]
    rfl
  change (y * z).toModel.unpack.isInf = false
  obtain ⟨u, hu⟩ := unpack_pack (s * t) hr hn.low hn.high (he.trans hv) (hn.finite hlt')
  rw [hmul, hu]
  rfl

end Courier.Rounding

import Courier.Proofs.Rounding
import Mathlib

/-!
# Doubles next to a result

A product and a quotient of doubles of 53 bits are told by their mantissas: the nearest natural number to what the
result is in the unit of its last place, and of two that are as near the even one.
-/

namespace Courier.Rounding

open Float.Model Float.Model.UnpackedFloat

/-! ## The nearest natural number -/

/-- The natural number next to `v / unit`, the even one of two that are as near. -/
def nearest (v unit : Nat) : Nat :=
  if 2 * (v % unit) < unit then v / unit
  else if 2 * (v % unit) = unit then v / unit + v / unit % 2
  else v / unit + 1

theorem nearest_add (q : Nat) {rest unit : Nat} (h : rest < unit) :
    nearest (q * unit + rest) unit =
      if 2 * rest < unit then q else if 2 * rest = unit then q + q % 2 else q + 1 := by
  have hdiv : (q * unit + rest) / unit = q := by
    rw [Nat.mul_comm, Nat.mul_add_div (Nat.zero_lt_of_lt h), Nat.div_eq_of_lt h, Nat.add_zero]
  have hmod : (q * unit + rest) % unit = rest := by
    rw [Nat.mul_comm, Nat.mul_add_mod, Nat.mod_eq_of_lt h]
  unfold nearest
  rw [hdiv, hmod]

theorem nearest_mul_mul (v unit : Nat) {c : Nat} (hc : 0 < c) : nearest (v * c) (unit * c) = nearest v unit := by
  have hdiv : v * c / (unit * c) = v / unit := Nat.mul_div_mul_right v unit hc
  have hlt : 2 * (v % unit * c) < unit * c ↔ 2 * (v % unit) < unit := by
    rw [← Nat.mul_assoc, Nat.mul_lt_mul_right hc]
  have heq : 2 * (v % unit * c) = unit * c ↔ 2 * (v % unit) = unit := by
    rw [← Nat.mul_assoc, Nat.mul_right_cancel_iff hc]
  unfold nearest
  simp only [hdiv, Nat.mul_mod_mul_right, hlt, heq]

theorem nearest_cases (v unit : Nat) :
    nearest v unit = v / unit ∧ 2 * (v % unit) ≤ unit ∨ nearest v unit = v / unit + 1 ∧ unit ≤ 2 * (v % unit) := by
  unfold nearest
  split
  · exact .inl ⟨rfl, by omega⟩
  split
  · rcases Nat.mod_two_eq_zero_or_one (v / unit) with hq | hq <;> rw [hq]
    · exact .inl ⟨rfl, by omega⟩
    · exact .inr ⟨rfl, by omega⟩
  · exact .inr ⟨rfl, by omega⟩

theorem nearest_bounds (v : Nat) {unit : Nat} (hu : 0 < unit) :
    2 * v ≤ 2 * (nearest v unit * unit) + unit ∧ 2 * (nearest v unit * unit) ≤ 2 * v + unit := by
  obtain ⟨q, r, hr, rfl⟩ : ∃ q r, r < unit ∧ v = q * unit + r :=
    ⟨v / unit, v % unit, Nat.mod_lt v hu, (Nat.div_add_mod' v unit).symm⟩
  rw [nearest_add q hr]
  split
  · omega
  split
  · rcases Nat.mod_two_eq_zero_or_one q with hq | hq <;> rw [hq, Nat.add_mul] <;> omega
  · rw [Nat.add_mul]
    omega

/-- Less than half a unit off there is no other number, and at half a unit no other even one. -/
theorem nearest_eq {v unit q : Nat} (h : 2 * v ≤ 2 * (q * unit) + unit) (h' : 2 * (q * unit) ≤ 2 * v + unit)
    (hq : q % 2 = 0 ∨ 2 * v < 2 * (q * unit) + unit ∧ 2 * (q * unit) < 2 * v + unit) (hu : 0 < unit) :
    nearest v unit = q := by
  rcases Nat.lt_or_ge v (q * unit) with hlt | hge
  · -- The quotient is the number before `q`.
    obtain ⟨p, rfl⟩ : ∃ p, q = p + 1 := ⟨q - 1, by have := Nat.pos_of_mul_pos_right (Nat.zero_lt_of_lt hlt); omega⟩
    rw [Nat.add_mul] at *
    obtain ⟨r, rfl⟩ : ∃ r, v = p * unit + r := ⟨v - p * unit, by omega⟩
    rw [nearest_add p (by omega)]
    split
    · omega
    split <;> omega
  · obtain ⟨r, rfl⟩ : ∃ r, v = q * unit + r := ⟨v - q * unit, by omega⟩
    rw [nearest_add q (by omega)]
    split
    · rfl
    split <;> omega

theorem le_nearest {v unit q : Nat} (hu : 0 < unit) (h : q * unit ≤ v) : q ≤ nearest v unit := by
  have hle : q ≤ v / unit := (Nat.le_div_iff_mul_le hu).mpr h
  unfold nearest
  split
  · exact hle
  split
  · exact hle.trans (Nat.le_add_right _ _)
  · exact hle.trans (Nat.le_add_right _ _)

theorem lost_lt {em : ExtendedMantissa} {unit rest : Nat} (h : Lost em unit rest) (hu : 0 < unit) : rest < unit := by
  obtain ⟨q, r, s⟩ := em
  cases r <;> cases s <;> simp only [Lost] at h <;> omega

theorem roundedMantissa_eq {em : ExtendedMantissa} {unit rest : Nat} (h : Lost em unit rest) (hu : 0 < unit) :
    em.roundedMantissa = nearest (em.mantissa * unit + rest) unit := by
  rw [nearest_add em.mantissa (lost_lt h hu)]
  obtain ⟨q, r, s⟩ := em
  cases r <;> cases s <;>
    simp only [Lost, ExtendedMantissa.roundedMantissa, ExtendedMantissa.accuracy, Accuracy.roundToNearestEven] at h ⊢
  · rw [if_pos (by omega)]
  · rw [if_pos (by omega)]
  · rw [if_neg (by omega), if_pos h]
  · rw [if_neg (by omega), if_neg (by omega)]

/-- A result of 53 bits and more, with a fraction under a unit that is not in the mantissa. -/
theorem roundWithAccuracy_eq (s : Sign) {m unit rest n : Nat} {e : Int} {acc : Accuracy} (hn : m.log2 = 52 + n)
    (he : -1074 ≤ e) (h : Lost (ExtendedMantissa.ofMantissaAndAccuracy m acc) unit rest) (hu : 0 < unit)
    (hh : nearest (m * unit + rest) (unit * 2 ^ n) < 2 ^ 53) :
    2 ^ 52 ≤ nearest (m * unit + rest) (unit * 2 ^ n) ∧
      ∃ hf, roundWithAccuracy Format.binary64 s m e acc =
        .finite s (nearest (m * unit + rest) (unit * 2 ^ n)) (e + n) hf := by
  have hm : (ExtendedMantissa.ofMantissaAndAccuracy m acc).mantissa = m := by
    unfold ExtendedMantissa.ofMantissaAndAccuracy
    split <;> rfl
  have hlow : 2 ^ 52 ≤ nearest (m * unit + rest) (unit * 2 ^ n) := by
    apply le_nearest (Nat.mul_pos hu (Nat.two_pow_pos n))
    calc 2 ^ 52 * (unit * 2 ^ n) = 2 ^ m.log2 * unit := by rw [hn, Nat.pow_add]; ring
      _ ≤ m * unit := Nat.mul_le_mul_right unit (Nat.log2_self_le (by rintro rfl; simp at hn; omega))
      _ ≤ m * unit + rest := Nat.le_add_right _ _
  obtain ⟨rest', hsum, hlost⟩ := lost_shiftRight h hu n
  have hround := roundedMantissa_eq hlost (Nat.mul_pos hu (Nat.two_pow_pos n))
  rw [← hsum, hm] at hround
  have heq : roundWithAccuracy Format.binary64 s m e acc =
      carry s (nearest (m * unit + rest) (unit * 2 ^ n)) (e + n) := by
    unfold roundWithAccuracy
    rw [shiftToTargetExponent_eq (by omega) he, show m.log2 - 52 = n by omega, ← hround]
    rfl
  exact ⟨hlow, _, heq.trans (carry_fits s hlow hh (by omega))⟩

theorem roundWithAccuracy_exact (s : Sign) {m n : Nat} {e : Int} (hn : m.log2 = 52 + n) (he : -1074 ≤ e)
    (hh : nearest m (2 ^ n) < 2 ^ 53) :
    2 ^ 52 ≤ nearest m (2 ^ n) ∧
      ∃ hf, roundWithAccuracy Format.binary64 s m e .exact = .finite s (nearest m (2 ^ n)) (e + n) hf := by
  have hl : Lost (ExtendedMantissa.ofMantissaAndAccuracy m .exact) 1 0 := rfl
  have h := roundWithAccuracy_eq s hn he hl Nat.one_pos
  rw [Nat.mul_one, Nat.add_zero, Nat.one_mul] at h
  exact h hh

theorem lost_fraction (q : Nat) {rest unit : Nat} (h : rest < unit) :
    Lost (ExtendedMantissa.ofMantissaAndAccuracy q (accuracyOfFraction rest unit)) unit rest := by
  unfold accuracyOfFraction
  by_cases hz : rest = 0
  · rw [if_pos hz]
    exact hz
  · rw [if_neg hz]
    cases hc : compare (2 * rest) unit with
    | lt => exact ⟨Nat.pos_of_ne_zero hz, Nat.compare_eq_lt.mp hc⟩
    | eq => exact Nat.compare_eq_eq.mp hc
    | gt => exact ⟨Nat.compare_eq_gt.mp hc, h⟩

/-! ## Doubles of 53 bits -/

/-- A positive double with this mantissa of 53 bits and this exponent. -/
structure Normal (x : Float) (f : Nat) (e : Int) : Prop where
  low : 2 ^ 52 ≤ f
  high : f < 2 ^ 53
  unpack : x.toModel.unpack = .finite .positive f e (by omega)

/-- The double is at most half a unit in its last place off, so no other double is nearer. -/
def NextTo (x : Float) (q : ℚ) : Prop := ∃ f e, Normal x f e ∧ |f * 2 ^ e - q| ≤ 2 ^ e / 2

theorem unpackSign_packComponents {spec : Format} {s : Sign} {exponent : BitVec spec.exponentBits}
    {mantissa : BitVec spec.mantissaBitsWithoutImplicit} :
    unpackSign (packComponents spec s exponent mantissa) = s.toBitVec := by
  apply BitVec.eq_of_getLsbD_eq
  intro i hi
  obtain rfl : i = 0 := by omega
  simp [unpackSign, packComponents, BitVec.getLsbD_append, BitVec.getElem_append]

theorem sign_unpack {b : BitVec Format.binary64.numBits} {s : Sign} {m : Nat} {e : Int} {hm : 0 < m}
    (h : UnpackedFloat.unpack Format.binary64 b = .finite s m e hm) : s = .ofBitVec (unpackSign b) := by
  unfold UnpackedFloat.unpack at h
  dsimp only at h
  split at h
  · split at h <;> cases h
  split at h
  · split at h
    · cases h
    · cases h
      rfl
  · cases h
    rfl

theorem unpackSign_pack (s : Sign) {f : Nat} {x : Int} (hf : 0 < f) :
    unpackSign (UnpackedFloat.pack Format.binary64 (.finite s f x hf)) = s.toBitVec := by
  unfold UnpackedFloat.pack
  dsimp only
  split
  · exact unpackSign_packComponents
  split
  · exact unpackSign_packComponents
  · exact unpackSign_packComponents

theorem ofBitVec_toBitVec (s : Sign) : Sign.ofBitVec s.toBitVec = s := by cases s <;> rfl

theorem unpack_pack_normal (s : Sign) {f : Nat} {x : Int} (h0 : 0 < f) (hl : 2 ^ 52 ≤ f) (hh : f < 2 ^ 53)
    (hx : -1074 ≤ x) (hx' : x ≤ 971) : (Float.Model.pack (.finite s f x h0)).unpack = .finite s f x h0 := by
  obtain ⟨t, ht⟩ := unpack_pack s h0 hl hh hx hx'
  have hs := sign_unpack (b := UnpackedFloat.pack Format.binary64 (.finite s f x h0)) ht
  rw [unpackSign_pack, ofBitVec_toBitVec] at hs
  rw [ht, hs]

namespace Normal

variable {y z : Float} {f g n : Nat} {x w : Int}

theorem log2 (h : Normal y f x) : f.log2 = 52 := log2_eq h.low h.high

theorem of_pack {y : Float} {f : Nat} {x : Int} (h0 : 0 < f) (hl : 2 ^ 52 ≤ f) (hh : f < 2 ^ 53) (hx : -1074 ≤ x)
    (hx' : x ≤ 971) (hy : y.toModel = Float.Model.pack (.finite .positive f x h0)) : Normal y f x :=
  ⟨hl, hh, by rw [hy, unpack_pack_normal .positive h0 hl hh hx hx']⟩

theorem toFloat {m : UInt64} (h0 : 0 < m.toNat) (h : m.toNat < 2 ^ 53) :
    Normal m.toFloat (m.toNat * 2 ^ (52 - m.toNat.log2)) (m.toNat.log2 - 52) := by
  have hlog : m.toNat.log2 < 53 := (Nat.log2_lt (by omega)).mpr h
  have hround := ofUInt64_eq h0
  obtain ⟨k, hk⟩ : ∃ k, k = 52 - m.toNat.log2 := ⟨_, rfl⟩
  rw [← hk] at hround ⊢
  have hl : 2 ^ 52 ≤ m.toNat * 2 ^ k := by
    calc 2 ^ 52 = 2 ^ m.toNat.log2 * 2 ^ k := by rw [← Nat.pow_add]; congr 1; omega
      _ ≤ m.toNat * 2 ^ k := Nat.mul_le_mul_right _ (Nat.log2_self_le (by omega))
  have hh : m.toNat * 2 ^ k < 2 ^ 53 := by
    calc m.toNat * 2 ^ k < 2 ^ (m.toNat.log2 + 1) * 2 ^ k :=
          Nat.mul_lt_mul_of_pos_right Nat.lt_log2_self (Nat.two_pow_pos k)
      _ = 2 ^ 53 := by rw [← Nat.pow_add]; congr 1; omega
  have hnear : nearest (m.toNat * 2 ^ k) (2 ^ 0) = m.toNat * 2 ^ k := by simp [nearest, Nat.mod_one]
  obtain ⟨-, hf, heq⟩ := roundWithAccuracy_exact .positive (m := m.toNat * 2 ^ k) (n := 0) (e := -(k : Int))
    (log2_eq hl hh) (by omega) (by rw [hnear]; exact hh)
  rw [Nat.shiftLeft_eq, heq] at hround
  refine of_pack (by omega) hl hh (by omega) (by omega) ?_
  change Float.Model.pack (UnpackedFloat.ofUInt64 Format.binary64 m) = _
  rw [hround]
  congr 2
  omega

theorem mul (hy : Normal y f x) (hz : Normal z g w) (hn : (f * g).log2 = 52 + n) (hx : -1074 ≤ x + w)
    (hx' : x + w + n ≤ 971) (hh : nearest (f * g) (2 ^ n) < 2 ^ 53) :
    Normal (y * z) (nearest (f * g) (2 ^ n)) (x + w + n) := by
  obtain ⟨hl, hf, heq⟩ := roundWithAccuracy_exact .positive hn hx hh
  refine of_pack (by omega) hl hh (by omega) hx' ?_
  change Float.Model.pack (UnpackedFloat.mul _ _ _) = _
  rw [hy.unpack, hz.unpack, ← heq]
  rfl

theorem div (hy : Normal y f x) (hz : Normal z g w) (hn : (f * 2 ^ 53 / g).log2 = 52 + n) (hx : -1021 ≤ x - w)
    (hx' : x - w - 53 + n ≤ 971) (hh : nearest (f * 2 ^ 53) (g * 2 ^ n) < 2 ^ 53) :
    Normal (y / z) (nearest (f * 2 ^ 53) (g * 2 ^ n)) (x - w - 53 + n) := by
  have hg : 0 < g := by have := hz.low; omega
  have hv : f * 2 ^ 53 / g * g + f * 2 ^ 53 % g = f * 2 ^ 53 := Nat.div_add_mod' _ _
  have hround := roundWithAccuracy_eq .positive (e := x - w - 53) hn (by omega)
    (lost_fraction (f * 2 ^ 53 / g) (Nat.mod_lt (f * 2 ^ 53) hg)) hg
  rw [hv] at hround
  obtain ⟨hl, hf, heq⟩ := hround hh
  have hcore : divCore Format.binary64 f x g w =
      (f * 2 ^ 53 / g, x - w - 53, accuracyOfFraction (f * 2 ^ 53 % g) g) := by
    have ht : min (x - w) (Format.binary64.targetExponent (totalExponent f x - totalExponent g w)) = x - w - 53 := by
      rw [targetExponent_max, totalExponent, totalExponent, hy.log2, hz.log2]
      omega
    simp only [divCore, ht, Nat.shiftLeft_eq, show (x - w - (x - w - 53)).toNat = 53 by omega]
  refine of_pack (by omega) hl hh (by omega) hx' ?_
  change Float.Model.pack (UnpackedFloat.div _ _ _) = _
  rw [hy.unpack, hz.unpack, ← heq]
  simp only [UnpackedFloat.div, hcore]
  rfl

theorem isFinite (hy : Normal y f x) : y.isFinite = true := by
  change y.toModel.unpack.isFinite = true
  rw [hy.unpack]
  rfl

theorem pos (hy : Normal y f x) : y > 0 := by
  have h : UnpackedFloat.lt (0 : Float).toModel.unpack y.toModel.unpack = true := by
    rw [hy.unpack]
    rfl
  exact decide_eq_true h

theorem toUInt64 {k : Nat} (hy : Normal y f (-(k : Int))) : y.toUInt64.toNat = f / 2 ^ k := by
  obtain ⟨rest, hsum, hlost⟩ := shiftRight_lost f k
  have hlt := lost_lt hlost (Nat.two_pow_pos k)
  have hm : ((⟨f, false, false⟩ : ExtendedMantissa) >>> k).mantissa = f / 2 ^ k := by
    generalize (⟨f, false, false⟩ : ExtendedMantissa) >>> k = em at hsum
    rw [hsum, Nat.mul_comm, Nat.mul_add_div (Nat.two_pow_pos k), Nat.div_eq_of_lt hlt, Nat.add_zero]
  have hround : roundToInt .positive f (-(k : Int)) = (f / 2 ^ k : Nat) := by
    have hd : decreaseExponent f (-(k : Int)) 0 = (f, -(k : Int)) := by simp [decreaseExponent]
    have hs : shiftToExponent f (-(k : Int)) .exact 0 =
        ((⟨f, false, false⟩ : ExtendedMantissa) >>> k, -(k : Int) + k) := by
      simp [shiftToExponent, ExtendedMantissa.ofMantissaAndAccuracy]
    simp only [roundToInt, hd, hs, hm]
    rfl
  have hle : f / 2 ^ k < UInt64.size := by
    have := Nat.div_le_self f (2 ^ k)
    have := hy.high
    change _ < 2 ^ 64
    omega
  change (UInt64.ofNatClamp (UnpackedFloat.toInt 0 (UInt64.size - 1) y.toModel.unpack).toNat).toNat = _
  rw [hy.unpack]
  simp only [UnpackedFloat.toInt, hround, Int.toNat_natCast, UInt64.ofNatClamp, dif_pos hle, UInt64.toNat_ofNatLT]

end Normal

end Courier.Rounding

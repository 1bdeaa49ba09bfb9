import Courier.Loss.Report
import Courier.Proofs.Nearest

/-!
# Times in seconds

A time is written as the double that is next to its seconds, and read back by cutting off what its thousandfold has
after the point. Some times come back a millisecond early, namely those whose thousandfold is rounded down.
-/

namespace Courier

open Rounding

namespace Timestamp

variable {t : Timestamp}

def mantissa (t : Timestamp) : Nat := t.millis.toNat * 2 ^ (52 - t.millis.toNat.log2)

/-- The seconds are written with a larger unit, and rounded down by so much that their thousandfold, which has half
that unit, does not come back to the milliseconds. -/
def slips (t : Timestamp) : Bool :=
  1000 * 2 ^ 43 ≤ t.mantissa && 256 < t.mantissa * 512 % 1000 && t.mantissa * 512 % 1000 < 500

theorem normal_thousand : Normal 1000.0 (1000 * 2 ^ 43) (-43) := ⟨by decide, by decide, rfl⟩

theorem log2_lt (h0 : 0 < t.millis.toNat) (ht : t.millis.toNat < 2 ^ 51) : t.millis.toNat.log2 < 51 :=
  (Nat.log2_lt (by omega)).mpr ht

theorem normal_millis (h0 : 0 < t.millis.toNat) (ht : t.millis.toNat < 2 ^ 51) :
    Normal t.millis.toFloat t.mantissa (t.millis.toNat.log2 - 52) :=
  Normal.toFloat h0 (by omega)

theorem four_dvd_mantissa (h0 : 0 < t.millis.toNat) (ht : t.millis.toNat < 2 ^ 51) : 4 ∣ t.mantissa := by
  have hlog := log2_lt h0 ht
  refine ⟨t.millis.toNat * 2 ^ (50 - t.millis.toNat.log2), ?_⟩
  rw [mantissa, show 52 - t.millis.toNat.log2 = 50 - t.millis.toNat.log2 + 2 by omega, Nat.pow_add]
  ring

/-- How many bits the quotient by a thousand has beyond 53. -/
def scale (t : Timestamp) : Nat := if t.mantissa < 1000 * 2 ^ 43 then 0 else 1

theorem scale_le (t : Timestamp) : t.scale ≤ 1 := by
  unfold scale
  split <;> omega

def secondsMantissa (t : Timestamp) : Nat := nearest (t.mantissa * 2 ^ (10 - t.scale)) 1000

theorem secondsMantissa_lt (hm : t.mantissa < 2 ^ 53) : t.secondsMantissa < 2 ^ 53 := by
  have hb := (nearest_bounds (t.mantissa * 2 ^ (10 - t.scale)) (show 0 < 1000 by omega)).2
  unfold secondsMantissa
  unfold scale at *
  split at hb <;> split <;> omega

theorem seconds_normal (h0 : 0 < t.millis.toNat) (ht : t.millis.toNat < 2 ^ 51) :
    Normal t.seconds t.secondsMantissa (t.millis.toNat.log2 - 62 + t.scale) := by
  have hm := normal_millis h0 ht
  have hlow := hm.low
  have hhigh := hm.high
  have hk := log2_lt h0 ht
  have hle := t.scale_le
  have hlog : (t.mantissa * 2 ^ 53 / (1000 * 2 ^ 43)).log2 = 52 + t.scale := by
    unfold scale
    rw [Nat.log2_eq_iff (by omega)]
    split <;> omega
  have hscale : nearest (t.mantissa * 2 ^ 53) (1000 * 2 ^ 43 * 2 ^ t.scale) = t.secondsMantissa := by
    rw [secondsMantissa, ← nearest_mul_mul (t.mantissa * 2 ^ (10 - t.scale)) 1000 (Nat.two_pow_pos (43 + t.scale))]
    congr 1
    · rw [Nat.mul_assoc, ← Nat.pow_add, show 10 - t.scale + (43 + t.scale) = 53 by omega]
    · rw [Nat.pow_add, Nat.mul_assoc]
  have hdiv := hm.div normal_thousand hlog (by omega) (by omega) (by rw [hscale]; exact secondsMantissa_lt hhigh)
  rw [hscale] at hdiv
  have he : (t.millis.toNat.log2 : Int) - 52 - -43 - 53 + t.scale = t.millis.toNat.log2 - 62 + t.scale := by omega
  rw [he] at hdiv
  exact hdiv

theorem mantissa_scaled (h0 : 0 < t.millis.toNat) (ht : t.millis.toNat < 2 ^ 51) :
    ((t.mantissa * 2 ^ (10 - t.scale) : Nat) : ℚ) * 2 ^ ((t.millis.toNat.log2 : Int) - 62 + t.scale) =
      t.millis.toNat := by
  have hk := log2_lt h0 ht
  have hle := t.scale_le
  have he : (t.millis.toNat.log2 : Int) - 62 + t.scale =
      -((52 - t.millis.toNat.log2 : Nat) + (10 - t.scale : Nat) : Int) := by omega
  rw [he, mantissa, zpow_neg, zpow_add₀ (by norm_num), zpow_natCast, zpow_natCast]
  push_cast
  field_simp

theorem seconds_nextTo (h0 : 0 < t.millis.toNat) (ht : t.millis.toNat < 2 ^ 51) :
    NextTo t.seconds (t.millis.toNat / 1000) := by
  refine ⟨_, _, seconds_normal h0 ht, ?_⟩
  have hscaled := mantissa_scaled h0 ht
  obtain ⟨hlow, hhigh⟩ := nearest_bounds (t.mantissa * 2 ^ (10 - t.scale)) (show 0 < 1000 by omega)
  change _ ≤ 2 * (t.secondsMantissa * 1000) + 1000 at hlow
  change 2 * (t.secondsMantissa * 1000) ≤ _ at hhigh
  generalize t.mantissa * 2 ^ (10 - t.scale) = v at *
  generalize (t.millis.toNat.log2 : Int) - 62 + t.scale = e at *
  have hpos : (0 : ℚ) < 2 ^ e := zpow_pos (by norm_num) e
  have hlow' : (2 * v : ℚ) * 2 ^ e ≤ (2 * (t.secondsMantissa * 1000) + 1000) * 2 ^ e :=
    mul_le_mul_of_nonneg_right (by exact_mod_cast hlow) hpos.le
  have hhigh' : (2 * (t.secondsMantissa * 1000) : ℚ) * 2 ^ e ≤ (2 * v + 1000) * 2 ^ e :=
    mul_le_mul_of_nonneg_right (by exact_mod_cast hhigh) hpos.le
  rw [abs_le, ← hscaled]
  constructor <;> linarith

def backMantissa (t : Timestamp) : Nat := nearest (t.secondsMantissa * 1000) (2 ^ (10 - t.scale))

/-- The thousandfold is that of the milliseconds, or off by one in the last place. -/
theorem backMantissa_eq (h0 : 0 < t.millis.toNat) (ht : t.millis.toNat < 2 ^ 51) :
    if t.slips then t.backMantissa = t.mantissa - 1
    else t.backMantissa = t.mantissa ∨ t.backMantissa = t.mantissa + 1 := by
  obtain ⟨c, hc⟩ := four_dvd_mantissa h0 ht
  have hlow := (normal_millis h0 ht).low
  by_cases hm : t.mantissa < 1000 * 2 ^ 43
  · -- What is rounded off before, half a thousand at most, is less than half the unit here.
    have hslips : t.slips = false := by
      unfold slips
      rw [decide_eq_false (by omega), Bool.false_and, Bool.false_and]
    have hback : t.backMantissa = nearest (nearest (t.mantissa * 1024) 1000 * 1000) 1024 := by
      rw [backMantissa, secondsMantissa, scale, if_pos hm]
    have hb := nearest_bounds (t.mantissa * 1024) (show 0 < 1000 by omega)
    rw [hslips, hback]
    exact .inl (nearest_eq (by omega) (by omega) (.inl (by omega)) (by omega))
  · have hback : t.backMantissa = nearest (nearest (t.mantissa * 512) 1000 * 1000) 512 := by
      rw [backMantissa, secondsMantissa, scale, if_neg hm]
    have hq := nearest_cases (t.mantissa * 512) 1000
    rw [hback]
    by_cases hs : t.slips
    · simp only [slips, Bool.and_eq_true, decide_eq_true_eq] at hs
      rw [if_pos (by simpa [slips, and_assoc] using hs)]
      exact nearest_eq (by omega) (by omega) (.inr (by omega)) (by omega)
    · rw [if_neg hs]
      simp only [slips, Bool.and_eq_true, decide_eq_true_eq] at hs
      rcases Nat.lt_or_ge (t.mantissa * 512 + 256) (nearest (t.mantissa * 512) 1000 * 1000) with hlt | hge
      · exact .inr (nearest_eq (by omega) (by omega) (.inr (by omega)) (by omega))
      · exact .inl (nearest_eq (by omega) (by omega) (.inl (by omega)) (by omega))

theorem backMantissa_lt (h0 : 0 < t.millis.toNat) (ht : t.millis.toNat < 2 ^ 51) : t.backMantissa < 2 ^ 53 := by
  have hdvd := four_dvd_mantissa h0 ht
  have hhigh := (normal_millis h0 ht).high
  have hback := backMantissa_eq h0 ht
  split at hback <;> omega

theorem log2_secondsMantissa (h0 : 0 < t.millis.toNat) (ht : t.millis.toNat < 2 ^ 51) :
    (t.secondsMantissa * (1000 * 2 ^ 43)).log2 = 52 + (53 - t.scale) := by
  have hdvd := four_dvd_mantissa h0 ht
  have hlow := (normal_millis h0 ht).low
  have hhigh := (normal_millis h0 ht).high
  have hs := (seconds_normal h0 ht).low
  rw [Nat.log2_eq_iff (by omega)]
  have hb := nearest_bounds (t.mantissa * 2 ^ (10 - t.scale)) (show 0 < 1000 by omega)
  change _ ≤ 2 * (t.secondsMantissa * 1000) + 1000 ∧ 2 * (t.secondsMantissa * 1000) ≤ _ at hb
  unfold scale at hb ⊢
  split at hb
  · next hm => rw [if_pos hm]; omega
  · next hm => rw [if_neg hm]; omega

theorem back_normal (h0 : 0 < t.millis.toNat) (ht : t.millis.toNat < 2 ^ 51) :
    Normal (t.seconds * 1000.0) t.backMantissa (-(52 - t.millis.toNat.log2 : Nat)) := by
  have hk := log2_lt h0 ht
  have hle := t.scale_le
  have hscale : nearest (t.secondsMantissa * (1000 * 2 ^ 43)) (2 ^ (53 - t.scale)) = t.backMantissa := by
    rw [backMantissa, ← nearest_mul_mul (t.secondsMantissa * 1000) _ (Nat.two_pow_pos 43), ← Nat.pow_add, Nat.mul_assoc]
    congr 2
    omega
  have hmul := (seconds_normal h0 ht).mul normal_thousand (log2_secondsMantissa h0 ht) (by omega) (by omega)
    (by rw [hscale]; exact backMantissa_lt h0 ht)
  rw [hscale] at hmul
  have he : (t.millis.toNat.log2 : Int) - 62 + t.scale + -43 + (53 - t.scale : Nat) =
      -(52 - t.millis.toNat.log2 : Nat) := by omega
  rwa [he] at hmul

/-- What a time in seconds is read back as. -/
def restored (t : Timestamp) : Timestamp := if t.slips then ⟨t.millis - 1⟩ else t

theorem restored_eq_iff (t : Timestamp) : t.restored = t ↔ t.slips = false := by
  unfold restored
  cases t.slips with
  | false => exact ⟨fun _ => rfl, fun _ => rfl⟩
  | true =>
    rw [if_pos rfl]
    refine ⟨fun h => ?_, nofun⟩
    have hm : t.millis - 1 = t.millis := congrArg millis h
    have hz : t.millis + 1 = t.millis := by rw [← hm, UInt64.sub_add_cancel, hm]
    exact absurd (UInt64.add_eq_left.mp hz) (by decide)

theorem restored_toNat (h0 : 0 < t.millis.toNat) :
    t.restored.millis.toNat = if t.slips then t.millis.toNat - 1 else t.millis.toNat := by
  unfold restored
  split
  · exact UInt64.toNat_sub_of_le _ _ (UInt64.le_iff_toNat_le.mpr h0)
  · rfl

/-- Without the bits that were moved in, one in the last place below the milliseconds is a millisecond less. -/
theorem backMantissa_div (h0 : 0 < t.millis.toNat) (ht : t.millis.toNat < 2 ^ 51) :
    t.backMantissa / 2 ^ (52 - t.millis.toNat.log2) = t.restored.millis.toNat := by
  have hback := backMantissa_eq h0 ht
  have hk := log2_lt h0 ht
  have hfour : 2 ^ 2 ≤ 2 ^ (52 - t.millis.toNat.log2) := Nat.pow_le_pow_right (by omega) (by omega)
  rw [restored_toNat h0]
  unfold mantissa at hback
  generalize 2 ^ (52 - t.millis.toNat.log2) = unit at *
  obtain ⟨m, hm⟩ : ∃ m, t.millis.toNat = m + 1 := ⟨t.millis.toNat - 1, by omega⟩
  rw [hm, Nat.add_mul] at hback
  rw [hm, Nat.div_eq_iff (by omega)]
  split at hback
  · next hs =>
    rw [if_pos hs, Nat.add_sub_cancel]
    omega
  · next hs =>
    rw [if_neg hs, Nat.add_mul]
    omega

theorem seconds_isFinite (ht : t.millis.toNat < 2 ^ 51) : t.seconds.isFinite = true := by
  rcases Nat.eq_zero_or_pos t.millis.toNat with h0 | h0
  · obtain ⟨millis⟩ := t
    obtain rfl : millis = 0 := UInt64.toNat_inj.mp h0
    rfl
  · exact (seconds_normal h0 ht).isFinite

theorem instant_seconds (ht : t.millis.toNat < 2 ^ 51) : LossReport.instant t.seconds = t.restored := by
  rcases Nat.eq_zero_or_pos t.millis.toNat with h0 | h0
  · obtain ⟨millis⟩ := t
    obtain rfl : millis = 0 := UInt64.toNat_inj.mp h0
    rfl
  · have hs := seconds_normal h0 ht
    have hword := (back_normal h0 ht).toUInt64
    rw [backMantissa_div h0 ht] at hword
    unfold LossReport.instant
    rw [hs.isFinite, decide_eq_true hs.pos, Bool.true_and, if_pos rfl, UInt64.toNat_inj.mp hword]

end Timestamp

end Courier

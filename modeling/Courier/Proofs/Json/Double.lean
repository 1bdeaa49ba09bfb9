import Courier.Proofs.Json.Number
import Courier.Proofs.Rounding
import Courier.Proofs.Shortest

/-!
# Doubles read back

The text of every finite double is read as some double. The digits stand for no more than what is rounded to the last
double, and neither the rounding of the digits nor that of the power of ten leads beyond it.
-/

namespace Courier

open Float.Model Float.Model.UnpackedFloat Rounding

namespace Numeral

/-! ## Scaling -/

/-- Whether these are the mantissa and the exponent of a power of ten that is a double. -/
def isPower (n : Nat) : UnpackedFloat → Bool
  | .finite _ f x _ =>
    2 ^ 52 ≤ f && f < 2 ^ 53 && -53 ≤ x && x ≤ 971 && f * 2 ^ x.toNat == 10 ^ n * 2 ^ (-x).toNat
  | _ => false

theorem isPower_powerOfTen : ∀ n : Fin 23, isPower n (powerOfTen n).toModel.unpack = true := by
  decide +kernel

theorem finite_of_isPower {n : Nat} {u : UnpackedFloat} (h : isPower n u = true) :
    ∃ s f x hf, u = .finite s f x hf ∧ 2 ^ 52 ≤ f ∧ f < 2 ^ 53 ∧ -53 ≤ x ∧ x ≤ 971 ∧
      f * 2 ^ x.toNat = 10 ^ n * 2 ^ (-x).toNat := by
  cases u with
  | finite s f x hf =>
    unfold isPower at h
    dsimp only at h
    simp only [Bool.and_eq_true, decide_eq_true_eq, beq_iff_eq] at h
    obtain ⟨⟨⟨⟨hl, hh⟩, hx⟩, hx'⟩, hq⟩ := h
    exact ⟨s, f, x, hf, rfl, hl, hh, hx, hx', hq⟩
  | notANumber => cases h
  | infinity => cases h
  | zero => cases h

theorem powerOfTen_near {n : Nat} (h : n ≤ 308) :
    ∃ s f x hf, (powerOfTen n).toModel.unpack = .finite s f x hf ∧ Near (10 ^ n) f x ∧ -53 ≤ x := by
  rcases Nat.lt_or_ge n 23 with hn | hn
  · -- the small powers are doubles, and the others are rounded
    obtain ⟨s, f, x, hf, heq, hl, hh, hx, hx', hq⟩ := finite_of_isPower (isPower_powerOfTen ⟨n, hn⟩)
    refine ⟨s, f, x, hf, heq, ⟨hl, hh, ?_, fun _ => hx'⟩, hx⟩
    have hq' : (f : ℚ) * 2 ^ x.toNat = 10 ^ n * 2 ^ (-x).toNat := by exact_mod_cast hq
    have hz : (2 : ℚ) ^ x = 2 ^ x.toNat / 2 ^ (-x).toNat := by
      rw [eq_div_iff (by positivity), ← zpow_natCast, ← zpow_natCast, ← zpow_add₀ (by norm_num)]
      congr 1
      omega
    have hv : (f : ℚ) * 2 ^ x = 10 ^ n := by
      rw [hz, mul_div_assoc', hq', mul_div_assoc, div_self (by positivity), mul_one]
    rw [hv]
    have := pow_pos (show (0 : ℚ) < 10 by norm_num) n
    linarith
  · have hlim : ((10 ^ n : Nat) : ℚ) < limit :=
      cast_lt_limit (lt_of_le_of_lt (Nat.pow_le_pow_right (by omega) h) (by decide +kernel))
    obtain ⟨f, x, hf, heq, hn', hx⟩ := roundWithAccuracy_near (.positive * .positive) (m := (1 <<< 53) * 10 ^ n)
      (e := -53) (by have := Nat.one_le_pow n 10 (by omega); omega) (by omega)
    have hq : (((1 <<< 53) * 10 ^ n : Nat) : ℚ) * 2 ^ (-53 : Int) = (10 ^ n : Nat) := by
      rw [Nat.shiftLeft_eq]
      push_cast
      rw [zpow_neg]
      field_simp
      norm_num
    rw [hq] at hn'
    obtain ⟨t, ht⟩ := unpack_pack (.positive * .positive) hf hn'.low hn'.high (by omega) (hn'.finite hlim)
    refine ⟨t, f, x, hf, ?_, by exact_mod_cast hn', hx⟩
    have hmodel : (powerOfTen n).toModel = Float.Model.pack (.finite (.positive * .positive) f x hf) := by
      rw [← heq]
      unfold powerOfTen Float.ofScientific
      rw [dif_neg (by omega)]
      change Float.Model.pack (UnpackedFloat.ofScientific _ _ _) = _
      unfold UnpackedFloat.ofScientific
      rw [dif_neg (by omega), if_neg (by simp; omega), if_neg (by simp; omega), if_pos (by simp)]
      rfl
    rw [hmodel, ht]

theorem zero_mul_powerOfTen {n : Nat} (h : n ≤ 308) : ((0 : UInt64).toFloat * powerOfTen n).isInf = false := by
  obtain ⟨s, f, x, hf, heq, -, -⟩ := powerOfTen_near h
  have hz : (0 : UInt64).toFloat.toModel.unpack = .zero .positive := by rfl
  have hmul : ((0 : UInt64).toFloat * powerOfTen n).toModel = Float.Model.pack (.zero (.positive * s)) := by
    change Float.Model.pack (UnpackedFloat.mul _ _ _) = _
    rw [hz, heq]
    rfl
  change ((0 : UInt64).toFloat * powerOfTen n).toModel.unpack.isInf = false
  rw [hmul]
  cases s <;> decide +kernel

/-- Beyond the largest power of ten that is a double there is no double. -/
theorem le_of_zpow_le {x : Int} (h : (10 : ℚ) ^ x ≤ (2 ^ 54 - 5) * 2 ^ (970 : Int)) : x ≤ 308 := by
  by_contra hx
  obtain ⟨k, rfl⟩ := Int.eq_ofNat_of_zero_le (show 0 ≤ x by omega)
  have hpos : (0 : ℚ) < 2 ^ (970 : Int) := zpow_pos (by norm_num) _
  have hq : (10 : ℚ) ^ k < 2 ^ (1024 : Int) :=
    calc (10 : ℚ) ^ k ≤ (2 ^ 54 - 5 : ℚ) * (2 : ℚ) ^ (970 : Int) := by simpa using h
      _ < limit := mul_lt_mul_of_pos_right (by norm_num) hpos
      _ < (2 : ℚ) ^ (1024 : Int) := limit_lt
  have hlt : 10 ^ k < 2 ^ 1024 := by exact_mod_cast hq
  have hle := Nat.pow_le_pow_right (show 0 < 10 by omega) (show 309 ≤ k by omega)
  exact absurd (hle.trans_lt hlt) (by decide +kernel)

/-- What is well below the last double is read, whatever is lost in the two roundings. -/
theorem scaled?_isSome {n : UInt64} {e : Int} (h : n.toNat * (10 : ℚ) ^ e ≤ (2 ^ 54 - 5) * 2 ^ (970 : Int)) :
    (scaled? n e).isSome = true := by
  unfold scaled?
  by_cases he : e < 0
  · rw [if_pos he]
    rfl
  rw [if_neg he]
  obtain ⟨k, rfl⟩ := Int.eq_ofNat_of_zero_le (show 0 ≤ e by omega)
  by_cases hk : k ≤ 308
  · rw [if_pos (by simp only [widest]; omega)]
    have hfin : (n.toFloat * powerOfTen k).isInf = false := by
      rcases Nat.eq_zero_or_pos n.toNat with hn | hn
      · rw [UInt64.toNat_inj.mp (hn.trans UInt64.toNat_zero.symm)]
        exact zero_mul_powerOfTen hk
      · obtain ⟨_, f, x, hf, hx, hn, hlx⟩ := toFloat_near hn
        obtain ⟨_, g, w, hg, hw, hn', hlw⟩ := powerOfTen_near hk
        -- each factor is rounded up by one part in `2 ^ 53` at most
        have hone : (0 : ℚ) ≤ 2 ^ 53 * 2 ^ 53 := by norm_num
        refine isInf_mul hx hw hn.low (by omega) (lt_of_mul_lt_mul_right ?_ hone)
        have hpos : (0 : ℚ) < 2 ^ (970 : Int) := zpow_pos (by norm_num) _
        calc (f : ℚ) * (2 : ℚ) ^ x * (g * (2 : ℚ) ^ w) * (2 ^ 53 * 2 ^ 53 : ℚ)
            = (f * (2 : ℚ) ^ x * (2 : ℚ) ^ 53) * (g * (2 : ℚ) ^ w * (2 : ℚ) ^ 53) := by ring
          _ ≤ (n.toNat * (2 ^ 53 + 1 : ℚ)) * ((10 : ℚ) ^ k * (2 ^ 53 + 1 : ℚ)) :=
            mul_le_mul hn.above hn'.above (by positivity) (by positivity)
          _ = (n.toNat * (10 : ℚ) ^ k) * ((2 ^ 53 + 1 : ℚ) * (2 ^ 53 + 1 : ℚ)) := by ring
          _ ≤ ((2 ^ 54 - 5 : ℚ) * (2 : ℚ) ^ (970 : Int)) * ((2 ^ 53 + 1 : ℚ) * (2 ^ 53 + 1 : ℚ)) :=
            mul_le_mul_of_nonneg_right (by simpa using h) (by norm_num)
          _ < limit * (2 ^ 53 * 2 ^ 53 : ℚ) := by
            rw [limit]
            generalize (2 : ℚ) ^ (970 : Int) = u at hpos
            linarith
    simp [hfin]
  · rw [if_neg (by simp only [widest]; omega)]
    have hn : n.toNat = 0 := by
      by_contra hn
      have h₁ : (1 : ℚ) ≤ n.toNat := Nat.one_le_cast.mpr (Nat.pos_of_ne_zero hn)
      have := le_of_zpow_le ((le_mul_of_one_le_left (by positivity) h₁).trans h)
      omega
    simp [UInt64.toNat_inj.mp (hn.trans UInt64.toNat_zero.symm)]

/-! ## Leading digits -/

theorem foldl_ge (m : Nat) (ds : List Nat) : m * 10 ^ ds.length ≤ ds.foldl (fun a d => a * 10 + d) m := by
  induction ds generalizing m with
  | nil => simp
  | cons d ds ih =>
    refine Nat.le_trans ?_ (ih (m * 10 + d))
    rw [List.length_cons, Nat.pow_succ, Nat.add_mul]
    exact Nat.le_trans (Nat.le_of_eq (by ring)) (Nat.le_add_right ..)

theorem push?_eq_some {m n : UInt64} {d : Nat} (h : push? m d = some n) : n.toNat = m.toNat * 10 + d := by
  unfold push? at h
  simp only at h
  split at h
  · next hlt =>
    cases h
    exact Nat.mod_eq_of_lt hlt
  · cases h

theorem takeWhole_eq {ds : List Nat} {m : UInt64} (h : ds.foldl (fun a d => a * 10 + d) m.toNat < 2 ^ 64) :
    takeWhole m ds = ⟨(ds.foldl (fun a d => a * 10 + d) m.toNat).toUInt64, 0⟩ := by
  induction ds generalizing m with
  | nil => simp [takeWhole]
  | cons d ds ih =>
    have hd := foldl_ge (m.toNat * 10 + d) ds
    have hlt : m.toNat * 10 + d < 2 ^ 64 :=
      Nat.lt_of_le_of_lt (Nat.le_mul_of_pos_right _ (Nat.pow_pos (by omega))) (Nat.lt_of_le_of_lt hd h)
    have hp : push? m d = some (m.toNat * 10 + d).toUInt64 := if_pos hlt
    have hn := push?_eq_some hp
    rw [takeWhole, hp]
    simp only
    rw [ih (by rw [hn]; exact h), hn]
    rfl

theorem takeFraction_exponent_le (l : Leading) (ds : List Nat) : (takeFraction l ds).exponent ≤ l.exponent := by
  induction ds generalizing l with
  | nil => exact Int.le_refl _
  | cons d ds ih =>
    rw [takeFraction]
    split
    · next n _ =>
      have hle := ih ⟨n, l.exponent - 1⟩
      simp only at hle
      omega
    · exact Int.le_refl _

theorem takeFraction_le (l : Leading) (ds : List Nat) :
    (takeFraction l ds).significand.toNat * (10 : ℚ) ^ (takeFraction l ds).exponent ≤
      (ds.foldl (fun a d => a * 10 + d) l.significand.toNat : Nat) * (10 : ℚ) ^ (l.exponent - ds.length) := by
  induction ds generalizing l with
  | nil => simp [takeFraction]
  | cons d ds ih =>
    rw [takeFraction]
    split
    · next n hn =>
      refine (ih ⟨n, l.exponent - 1⟩).trans_eq ?_
      rw [push?_eq_some hn, List.length_cons, List.foldl_cons]
      congr 2
      push_cast
      ring
    · have h : ((l.significand.toNat * 10 ^ (d :: ds).length : Nat) : ℚ) ≤
          ((d :: ds).foldl (fun a d => a * 10 + d) l.significand.toNat : Nat) :=
        Nat.cast_le.mpr (foldl_ge ..)
      have hpow : (10 : ℚ) ^ l.exponent = 10 ^ (d :: ds).length * (10 : ℚ) ^ (l.exponent - (d :: ds).length) := by
        rw [← zpow_natCast, ← zpow_add₀ (by norm_num)]
        congr 1
        omega
      push_cast at h
      rw [hpow, ← mul_assoc]
      exact mul_le_mul_of_nonneg_right h (by positivity)

/-! ## Digits around a point -/

theorem digit_of_mem_zeros {n : Nat} {c : Char} (h : c ∈ List.replicate n '0') : c.isDigit = true := by
  rw [List.eq_of_mem_replicate h]
  rfl

/-- Sixteen digits before a point, and at least one behind it. -/
theorem unsigned?_point (negative : Bool) (whole fraction : List Char) (hw : ∀ c ∈ whole, c.isDigit = true)
    (hf : ∀ c ∈ fraction, c.isDigit = true) (hz : whole.head? = some '0' → whole.length = 1) (hn : whole ≠ [])
    (hm : whole.length ≤ 16) (hn' : fraction ≠ []) :
    ∃ n, unsigned? negative (whole ++ '.' :: fraction) = some n ∧ n.float?.isSome = true := by
  obtain ⟨c, cs, rfl⟩ := List.exists_cons_of_ne_nil hn
  obtain ⟨d, ds, rfl⟩ := List.exists_cons_of_ne_nil hn'
  refine ⟨⟨negative, values (c :: cs), values (d :: ds), none⟩, ?_, ?_⟩
  · have hdigits := @digits_append _ ('.' :: d :: ds) hw (by simp)
    have hdigits' := @digits_append _ [] hf (by simp)
    rw [List.append_nil] at hdigits'
    simp only [unsigned?, hdigits.1, hdigits.2, whole_valid hn hw hz, fraction?, hdigits'.1, hdigits'.2, exponent?]
    rfl
  · have hv := Text.valueOf_lt hw
    have hlt : Text.valueOf (c :: cs) < 10 ^ 16 := hv.trans_le (Nat.pow_le_pow_right (by omega) hm)
    have hwhole : takeWhole 0 (values (c :: cs)) = ⟨(Text.valueOf (c :: cs)).toUInt64, 0⟩ := by
      have h := @takeWhole_eq (values (c :: cs)) 0
      simp only [UInt64.toNat_zero, foldl_values_eq] at h
      exact h (by omega)
    have hd := Text.digit_bounds (hf d List.mem_cons_self)
    have hpush : push? (Text.valueOf (c :: cs)).toUInt64 (d.toNat - 48) =
        some (Text.valueOf (c :: cs) * 10 + (d.toNat - 48)).toUInt64 := by
      have hv' : (Text.valueOf (c :: cs)).toUInt64.toNat = Text.valueOf (c :: cs) := Nat.mod_eq_of_lt (by omega)
      simp only [push?, hv']
      exact if_pos (by omega)
    -- the first digit behind the point still fits, so the exponent goes below zero
    have hneg : (takeFraction (takeWhole 0 (values (c :: cs))) (values (d :: ds))).exponent < 0 := by
      rw [hwhole, values, List.map_cons, takeFraction, hpush]
      have hle := takeFraction_exponent_le ⟨(Text.valueOf (c :: cs) * 10 + (d.toNat - 48)).toUInt64, 0 - 1⟩ (values ds)
      simp only [values] at hle ⊢
      omega
    simp only [float?, scaled?, hneg, ite_true]
    rfl

def exponentText (x : Int) : List Char :=
  'e' :: (if x < 0 then '-' else '+') :: Nat.toDigits 10 x.natAbs

theorem exponent?_exponentText (x : Int) :
    exponent? (exponentText x) = some (some ⟨decide (x < 0), values (Nat.toDigits 10 x.natAbs)⟩) := by
  have h := digits_append (fun b hb => isDigit_of_mem_toDigits (n := x.natAbs) hb)
    (show ∀ b ∈ ([] : List Char).head?, b.isDigit = false by simp)
  rw [List.append_nil] at h
  have hdigits (minus : Bool) : exponentDigits? minus (Nat.toDigits 10 x.natAbs) =
      some ⟨minus, values (Nat.toDigits 10 x.natAbs)⟩ := by
    have hne : (values (Nat.toDigits 10 x.natAbs)).isEmpty = false := by
      simp [values, Nat.toDigits_ne_nil]
    simp only [exponentDigits?, h.1, h.2, hne]
    rfl
  unfold exponentText
  by_cases hneg : x < 0
  · simp [exponent?, hneg, hdigits]
  · simp [exponent?, hneg, hdigits]

theorem fraction?_append {cs : List Char} {x : Int} (hd : ∀ b ∈ cs, b.isDigit = true) :
    fraction? ((if cs = [] then [] else '.' :: cs) ++ exponentText x) = some (values cs, exponentText x) := by
  have h := digits_append hd (show ∀ b ∈ (exponentText x).head?, b.isDigit = false by simp [exponentText])
  cases cs with
  | nil => rfl
  | cons b bs =>
    rw [if_neg (by simp), List.cons_append]
    simp only [fraction?, h.1, h.2]
    rfl

/-- One digit before the point, and an exponent. -/
theorem float?_exponent (negative minus : Bool) {c : Char} {cs : List Char} {x : Int}
    (hc : ∀ b ∈ c :: cs, b.isDigit = true) (hm : minus = decide (x < 0)) (hx : x < 2 ^ 31)
    (hq : (Text.valueOf (c :: cs) : ℚ) * 10 ^ (x - cs.length) ≤ (2 ^ 54 - 5) * 2 ^ (970 : Int)) :
    (⟨negative, values [c], values cs, some ⟨minus, values (Nat.toDigits 10 x.natAbs)⟩⟩ : Numeral).float?.isSome =
      true := by
  have hd := Text.digit_bounds (hc c List.mem_cons_self)
  have hwhole : takeWhole 0 (values [c]) = ⟨(c.toNat - 48).toUInt64, 0⟩ := by
    have h := @takeWhole_eq (values [c]) 0
    simp only [UInt64.toNat_zero, foldl_values_eq] at h
    rw [h (by simp only [Text.valueOf, List.foldl]; omega)]
    simp [Text.valueOf]
  have hle := takeFraction_le ⟨(c.toNat - 48).toUInt64, 0⟩ (values cs)
  have hsome : (scaled? (takeFraction ⟨(c.toNat - 48).toUInt64, 0⟩ (values cs)).significand
      ((takeFraction ⟨(c.toNat - 48).toUInt64, 0⟩ (values cs)).exponent + x)).isSome = true := by
    refine scaled?_isSome (le_trans ?_ hq)
    have hv : (values cs).foldl (fun a d => a * 10 + d) (c.toNat - 48).toUInt64.toNat = Text.valueOf (c :: cs) := by
      rw [← foldl_values_eq, values, values, List.map_cons, List.foldl_cons, Nat.zero_mul, Nat.zero_add]
      congr 1
      exact Nat.mod_eq_of_lt (by omega)
    rw [hv] at hle
    rw [zpow_add₀ (by norm_num), ← mul_assoc]
    refine (mul_le_mul_of_nonneg_right hle (by positivity)).trans_eq ?_
    rw [mul_assoc, ← zpow_add₀ (by norm_num)]
    congr 2
    simp only [values, List.length_map]
    omega
  have hshift : (if minus then -(x.natAbs : Int) else x.natAbs) = x := by
    subst hm
    split
    · next h => simp only [decide_eq_true_eq] at h; omega
    · next h => simp only [decide_eq_true_eq] at h; omega
  simp only [float?, hwhole, foldl_values, Option.isSome_map]
  -- an exponent that does not fit is negative here, and what it belongs to is read as zero
  by_cases h : x.natAbs < 2 ^ 31
  · rw [if_pos h, hshift]
    exact hsome
  · have hminus : minus = true := by rw [hm, decide_eq_true_eq]; omega
    rw [if_neg h, hminus]
    rfl

end Numeral

namespace Decimal.Scaled

open Numeral

variable {s : Scaled}

/-- Behind the digits of a whole number come its zeros, the point and one more zero. -/
theorem whole_reads (negative : Bool) {cs : List Char} (hd : ∀ b ∈ cs, b.isDigit = true) (hne : cs ≠ [])
    (hz : cs.head? ≠ some '0') {n : Nat} (hm : cs.length + n ≤ 16) :
    ∃ k, unsigned? negative (cs ++ List.replicate n '0' ++ '.' :: ['0']) = some k ∧ k.float?.isSome = true := by
  have hhead : (cs ++ List.replicate n '0').head? = cs.head? := by
    rw [List.head?_append_of_ne_nil _ hne]
  refine unsigned?_point negative _ ['0'] ?_ (by simp) ?_ (by simp [hne]) ?_ (by simp)
  · intro b hb
    rcases List.mem_append.mp hb with hb | hb
    · exact hd b hb
    · exact digit_of_mem_zeros hb
  · intro h
    rw [hhead] at h
    exact absurd h hz
  · rw [List.length_append, List.length_replicate]
    exact hm

/-- A fraction gets so many zeros in front that a digit stands before the point. -/
theorem fraction_reads (negative : Bool) {cs : List Char} (hd : ∀ b ∈ cs, b.isDigit = true) (hz : cs.head? ≠ some '0')
    {k : Nat} (hk : 0 < k) (hm : cs.length ≤ k + 16) :
    let padded := List.replicate (k + 1 - cs.length) '0' ++ cs
    ∃ n, unsigned? negative (padded.take (padded.length - k) ++ '.' :: padded.drop (padded.length - k)) = some n ∧
      n.float?.isSome = true := by
  intro padded
  have hl : padded.length = max (k + 1) cs.length := by
    rw [List.length_append, List.length_replicate]
    omega
  have hdigit : ∀ b ∈ padded, b.isDigit = true := by
    intro b hb
    rcases List.mem_append.mp hb with hb | hb
    · exact digit_of_mem_zeros hb
    · exact hd b hb
  refine unsigned?_point negative _ _ (fun b hb => hdigit b (List.mem_of_mem_take hb))
    (fun b hb => hdigit b (List.mem_of_mem_drop hb)) ?_ ?_ ?_ ?_
  · intro h
    rw [List.length_take]
    rcases Nat.lt_or_ge k cs.length with hlt | hge
    · -- the digits go on before the point, and do not begin with a zero
      have hcs : padded = cs := by
        rw [show padded = List.replicate (k + 1 - cs.length) '0' ++ cs from rfl,
          show k + 1 - cs.length = 0 by omega, List.replicate_zero, List.nil_append]
      rw [List.head?_take, if_neg (by omega), hcs] at h
      exact absurd h hz
    · omega
  · intro h
    have := congrArg List.length h
    rw [List.length_take, List.length_nil] at this
    omega
  · rw [List.length_take]
    omega
  · intro h
    have := congrArg List.length h
    rw [List.length_drop, List.length_nil] at this
    omega

/-- Without an exponent there are sixteen digits before the point at most. -/
theorem positional_reads (negative : Bool) (hd : 0 < s.digits) (hm : s.magnitude < 16) :
    ∃ n, unsigned? negative (s.positional 1).toList = some n ∧ n.float?.isSome = true := by
  have hdigit : ∀ b ∈ Nat.toDigits 10 s.digits, b.isDigit = true := fun b hb => isDigit_of_mem_toDigits hb
  have hhead : (Nat.toDigits 10 s.digits).head? ≠ some '0' := by
    obtain ⟨c, cs, hc, hz⟩ := toDigits_head s.digits
    rw [hc]
    intro h
    have := (hz (Option.some.inj h)).1
    omega
  unfold magnitude at hm
  rw [Nat.toString_eq_repr, ← String.length_toList, Nat.toList_repr] at hm
  have hpoint : ".".toList = ['.'] := rfl
  unfold positional
  simp only [Nat.toString_eq_repr]
  split
  · next he =>
    simp only [Nat.reduceEqDiff, ite_false, String.toList_append, toList_pushn, Nat.toList_repr, hpoint,
      String.toList_empty, List.nil_append, List.append_assoc ((_ : List Char) ++ _) ['.'], List.singleton_append]
    exact whole_reads negative hdigit Nat.toDigits_ne_nil hhead (by omega)
  · next he =>
    have hlen : (s.digits.repr).length = (Nat.toDigits 10 s.digits).length := by
      rw [← String.length_toList, Nat.toList_repr]
    simp only [String.toList_append, toList_pushn, Nat.toList_repr, String.toList_ofList, hpoint, hlen,
      String.toList_empty, List.nil_append, List.append_assoc (_ : List Char) ['.'], List.singleton_append]
    exact fraction_reads negative hdigit hhead (by omega) (by omega)

theorem exponent_le {c : Char} {cs : List Char} (hd : 0 < s.digits) (hc : Nat.toDigits 10 s.digits = c :: cs)
    (hv : s.value ≤ (2 ^ 54 - 5) * 2 ^ (970 : Int)) : s.exponent + cs.length ≤ 308 := by
  have hlen : 10 ^ cs.length ≤ s.digits := by
    rcases Nat.eq_zero_or_pos cs.length with h0 | h0
    · rw [h0]
      exact hd
    · refine Nat.le_of_not_lt fun hlt => ?_
      have := (Nat.length_toDigits_le_iff (by decide) h0).mpr hlt
      rw [hc, List.length_cons] at this
      omega
  refine le_of_zpow_le (le_trans ?_ hv)
  rw [zpow_add₀ (by norm_num), mul_comm, zpow_natCast]
  exact mul_le_mul_of_nonneg_right (by exact_mod_cast hlen) (by positivity)

theorem toList_scientific {c : Char} {cs : List Char} (hc : Nat.toDigits 10 s.digits = c :: cs) :
    s.scientific.toList =
      c :: ((if cs = [] then [] else '.' :: cs) ++ exponentText (s.exponent + (cs.length : Nat))) := by
  have hsign (x : Int) : (if x < 0 then "-" else "+").toList = [if x < 0 then '-' else '+'] := by split <;> rfl
  unfold scientific exponentText
  simp only [Nat.toString_eq_repr, Nat.toList_repr, hc, String.toList_append, String.toList_ofList, List.length_cons,
    Nat.add_sub_cancel, hsign]
  cases cs <;> simp

theorem scientific_reads (negative : Bool) (hd : 0 < s.digits) (hv : s.value ≤ (2 ^ 54 - 5) * 2 ^ (970 : Int)) :
    ∃ n, unsigned? negative s.scientific.toList = some n ∧ n.float?.isSome = true := by
  obtain ⟨c, cs, hc, -⟩ := toDigits_head s.digits
  have hdigit : ∀ b ∈ c :: cs, b.isDigit = true := fun b hb => isDigit_of_mem_toDigits (hc ▸ hb)
  have hone : ∀ b ∈ [c], b.isDigit = true := fun b hb => hdigit b (List.mem_cons.mpr (.inl (List.mem_singleton.mp hb)))
  have hbig := exponent_le hd hc hv
  have hval : (Text.valueOf (c :: cs) : ℚ) * 10 ^ (s.exponent + (cs.length : Nat) - cs.length) = s.value := by
    rw [← hc, Text.valueOf_toDigits, add_sub_cancel_right]
    rfl
  rw [toList_scientific hc]
  generalize s.exponent + (cs.length : Nat) = x at hbig hval ⊢
  refine ⟨⟨negative, values [c], values cs, some ⟨decide (x < 0), values (Nat.toDigits 10 x.natAbs)⟩⟩, ?_,
    float?_exponent negative _ hdigit rfl (by omega) (hval ▸ hv)⟩
  have hwhole := digits_append hone
    (show ∀ b ∈ ((if cs = [] then [] else '.' :: cs) ++ exponentText x).head?, b.isDigit = false by
      split <;> simp [exponentText])
  rw [List.singleton_append] at hwhole
  simp only [unsigned?, hwhole.1, hwhole.2, whole_valid (List.cons_ne_nil c []) hone fun _ => rfl,
    fraction?_append fun b hb => hdigit b (List.mem_cons_of_mem c hb), exponent?_exponentText]
  rfl

/-- The two greatest doubles are read as well. -/
theorem greatest_reads (negative : Bool) (last : Fin 2) :
    ∃ n, unsigned? negative (⟨17976931348623155 + 2 * last, 292⟩ : Scaled).scientific.toList = some n ∧
      n.float?.isSome = true := by
  have h : ∀ (negative : Bool) (last : Fin 2), ((unsigned? negative
      (⟨17976931348623155 + 2 * last, 292⟩ : Scaled).scientific.toList).bind Numeral.float?).isSome = true := by
    decide +kernel
  obtain ⟨y, hy⟩ := Option.isSome_iff_exists.mp (h negative last)
  obtain ⟨n, hn, hy⟩ := Option.bind_eq_some_iff.mp hy
  exact ⟨n, hn, Option.isSome_iff_exists.mpr ⟨y, hy⟩⟩

theorem shortest_greatest (last : Fin 2) (narrow : Bool) (hn : narrow = true → 2 ^ 53 - 2 + last.val = 2 ^ 52) :
    ((Interval.ofBinary (2 ^ 53 - 2 + last) 971 narrow).search
      ((Interval.ofBinary (2 ^ 53 - 2 + last) 971 narrow).magnitude ((971 + 52) * 30103 / 100000 - 18) 40) 16).trim 17 =
        ⟨17976931348623155 + 2 * last, 292⟩ := by
  cases narrow with
  | true => exact absurd (hn rfl) (by omega)
  | false =>
    revert last
    decide +kernel

end Decimal.Scaled

namespace Numeral

theorem ofChars?_signed {sign cs : List Char} (hs : sign = [] ∨ sign = ['-'])
    (h : ∀ negative, ∃ n, unsigned? negative cs = some n ∧ n.float?.isSome = true) :
    ∃ n, ofChars? (sign ++ cs) = some n ∧ n.float?.isSome = true := by
  rcases hs with rfl | rfl
  · obtain ⟨n, hn, hf⟩ := h false
    refine ⟨n, ?_, hf⟩
    rw [List.nil_append]
    unfold ofChars?
    split
    · -- what starts with a second sign is not read
      cases hn
    · exact hn
  · exact h true

end Numeral

namespace Float

theorem json_reads_digits {x : Float} (h : x.isFinite = true) (hz : (x == 0) = false) (negative : Bool) :
    ∃ n, Numeral.unsigned? negative
      (if -5 ≤ (Decimal.shortest x.abs).magnitude ∧ (Decimal.shortest x.abs).magnitude < 16
        then (Decimal.shortest x.abs).positional 1 else (Decimal.shortest x.abs).scientific).toList = some n ∧
      n.float?.isSome = true := by
  have hfin : x.toModel.unpack.isFinite = true := h
  cases hu : x.toModel.unpack with
  | notANumber =>
    rw [hu] at hfin
    cases hfin
  | infinity s =>
    rw [hu] at hfin
    cases hfin
  | zero s =>
    have h0 : (0 : Float).toModel.unpack = .zero .positive := by rfl
    have : (x == 0) = UnpackedFloat.beq x.toModel.unpack (0 : Float).toModel.unpack := rfl
    rw [this, hu, h0] at hz
    cases hz
  | finite s m e hm =>
    obtain ⟨t, ht⟩ := unpack_pack_finite hu .positive
    have ha : x.abs.toModel.unpack = .finite t m e hm := by
      change (Float.Model.pack x.toModel.unpack.abs).unpack = _
      rw [hu]
      exact ht
    obtain ⟨hd, hv⟩ := Decimal.shortest_le ha
    obtain ⟨-, -, -, hlt, -, hh⟩ := Decimal.binaryParts_unpack ha
    split
    · next hm => exact Decimal.Scaled.positional_reads negative hd hm.2
    · -- the two greatest doubles are too close to the limit for the bound
      by_cases hg : 2 ^ 53 - 2 ≤ m ∧ e = 971
      · obtain ⟨narrow, hn, heq⟩ := Decimal.shortest_eq ha
        obtain ⟨last, rfl⟩ : ∃ last : Fin 2, m = 2 ^ 53 - 2 + last.val := ⟨⟨m - (2 ^ 53 - 2), by omega⟩, by simp; omega⟩
        rw [hg.2] at heq
        rw [heq, Decimal.Scaled.shortest_greatest last narrow hn]
        exact Decimal.Scaled.greatest_reads negative last
      · exact Decimal.Scaled.scientific_reads negative hd (hv.trans (Rounding.half_above_le hlt hh hg))

/-- The text of a finite double is read as a double. -/
theorem json_reads {x : Float} (h : x.isFinite = true) :
    ∃ n y, Numeral.ofChars? (Float.json x).toList = some n ∧ n.value? = some (.float y) := by
  have hs : (if x.toBits >>> 63 == 1 then "-" else "").toList = [] ∨
      (if x.toBits >>> 63 == 1 then "-" else "").toList = ['-'] := by
    split <;> simp
  have hread : ∃ n, Numeral.ofChars? (Float.json x).toList = some n ∧ n.float?.isSome = true := by
    unfold Float.json
    simp only [h, Bool.not_true, Bool.false_eq_true, ite_false]
    split
    · rw [String.toList_append]
      exact Numeral.ofChars?_signed hs fun negative => Numeral.unsigned?_point negative ['0'] ['0'] (by simp) (by simp)
        (fun _ => rfl) (by simp) (by simp) (by simp)
    · next hz =>
      have hd := Numeral.ofChars?_signed hs (json_reads_digits h (by simpa using hz))
      split
      · next hm => rw [if_pos hm] at hd; rwa [String.toList_append]
      · next hm => rw [if_neg hm] at hd; rwa [String.toList_append]
  obtain ⟨n, hn, hf⟩ := hread
  obtain ⟨y, hy⟩ := Option.isSome_iff_exists.mp hf
  exact ⟨n, y, hn, by rw [Numeral.ofChars?_value? hn (Float.json_numeric h).2, hy]; rfl⟩

end Float

end Courier

import Courier.Text.Word

/-!
# Decimal digits

The digits of a number read back as the number, and only zero starts with a zero.
-/

namespace Courier

theorem isDigit_of_mem_toDigits {n : Nat} {c : Char} (h : c ∈ Nat.toDigits 10 n) : c.isDigit = true :=
  Nat.isDigit_of_mem_toDigits (by decide) (by decide) h

theorem Text.valueOf_eq (cs : List Char) : valueOf cs = Nat.ofDigitChars 10 cs 0 := by
  unfold valueOf Nat.ofDigitChars
  congr 1
  funext n c
  rw [Nat.mul_comm]
  rfl

theorem Text.valueOf_toDigits (n : Nat) : valueOf (Nat.toDigits 10 n) = n := by
  rw [valueOf_eq, Nat.ofDigitChars_ten_toDigits]

theorem Text.valueOf_zeros (k : Nat) (cs : List Char) : valueOf (List.replicate k '0' ++ cs) = valueOf cs := by
  rw [valueOf_eq, valueOf_eq, Nat.ofDigitChars_append, Nat.ofDigitChars_replicate_zero, Nat.mul_zero]

theorem Text.valueOf_cons (c : Char) (cs : List Char) :
    valueOf (c :: cs) = 10 ^ cs.length * (c.toNat - 48) + valueOf cs := by
  rw [valueOf_eq, valueOf_eq, Nat.ofDigitChars_cons, Nat.ofDigitChars_eq_ofDigitChars_zero, Nat.mul_zero, Nat.zero_add]
  rfl

theorem Text.digit_bounds {c : Char} (h : c.isDigit = true) : 48 ≤ c.toNat ∧ c.toNat ≤ 57 :=
  Char.isDigit_iff_toNat.mp h

theorem Text.valueOf_lt {cs : List Char} (h : ∀ c ∈ cs, c.isDigit = true) : valueOf cs < 10 ^ cs.length := by
  induction cs with
  | nil => decide
  | cons c cs ih =>
    have hv := ih fun d hd => h d (List.mem_cons_of_mem _ hd)
    have hc := digit_bounds (h c List.mem_cons_self)
    have hm : 10 ^ cs.length * (c.toNat - 48) ≤ 10 ^ cs.length * 9 := Nat.mul_le_mul_left _ (by omega)
    rw [valueOf_cons, List.length_cons, Nat.pow_succ]
    omega

theorem toDigits_head (n : Nat) : ∃ c cs, Nat.toDigits 10 n = c :: cs ∧ (c = '0' → n = 0 ∧ cs = []) := by
  induction n using Nat.strongRecOn with
  | ind n ih =>
    rw [Nat.toDigits_eq_if (by decide)]
    split
    · exact ⟨_, [], rfl, fun h => ⟨Nat.digitChar_eq_zero.mp h, rfl⟩⟩
    · next hn =>
      obtain ⟨c, cs, hc, hz⟩ := ih (n / 10) (by omega)
      refine ⟨c, cs ++ [Nat.digitChar (n % 10)], by rw [hc]; rfl, fun h => ?_⟩
      have := (hz h).1
      omega

end Courier

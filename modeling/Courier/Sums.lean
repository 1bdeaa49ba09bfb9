import Courier.Arithmetic

/-!
# Sums of words

A sum of words may be too large for a word. What happens then depends on how the program was built: with checks it
stops at the sum, and without them it goes on with what remains modulo `2^64`.
-/

namespace Courier

/-- A sum was too large for a word, and the program stopped there. -/
structure Overflow where
  deriving DecidableEq, Repr, Inhabited

inductive Sums
  | checked
  | wrapping
  deriving DecidableEq, Repr, Inhabited

namespace Sums

def add (s : Sums) (a b : UInt64) : Except Overflow UInt64 :=
  if s = .checked ∧ 2 ^ 64 ≤ a.toNat + b.toNat then .error {} else .ok (a + b)

def total (s : Sums) (ns : List UInt64) : Except Overflow UInt64 := ns.foldlM s.add 0

/-- If the sum so far fits, whether the next one does depends on the whole only. -/
theorem foldlM_add (s : Sums) (ns : List UInt64) (a : UInt64) :
    ns.foldlM s.add a =
      if s = .checked ∧ 2 ^ 64 ≤ a.toNat + (ns.map UInt64.toNat).sum then .error {} else .ok (a + ns.sum) := by
  induction ns generalizing a with
  | nil =>
    rw [if_neg fun h => Nat.not_le_of_lt a.toNat_lt h.2]
    simp
    rfl
  | cons n ns ih =>
    rw [List.foldlM_cons, List.map_cons, List.sum_cons, List.sum_cons, add]
    by_cases hs : s = .checked
    · by_cases hn : 2 ^ 64 ≤ a.toNat + n.toNat
      · rw [if_pos ⟨hs, hn⟩, if_pos ⟨hs, by omega⟩]
        rfl
      · have ha : (a + n).toNat = a.toNat + n.toNat := by rw [UInt64.toNat_add]; omega
        rw [if_neg fun h => hn h.2]
        show ns.foldlM s.add (a + n) = _
        rw [ih, ha, Nat.add_assoc, UInt64.add_assoc]
    · rw [if_neg fun h => hs h.1, if_neg fun h => hs h.1]
      show ns.foldlM s.add (a + n) = _
      rw [ih, if_neg fun h => hs h.1, UInt64.add_assoc]

theorem total_eq (s : Sums) (ns : List UInt64) :
    s.total ns = if s = .checked ∧ 2 ^ 64 ≤ (ns.map UInt64.toNat).sum then .error {} else .ok ns.sum := by
  rw [total, foldlM_add]
  simp

theorem sum_of_total {s : Sums} {ns : List UInt64} {n : UInt64} (h : s.total ns = .ok n) : n = ns.sum := by
  rw [total_eq] at h
  split at h
  · cases h
  · exact (Except.ok.inj h).symm

end Sums

end Courier

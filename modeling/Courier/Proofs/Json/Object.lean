import Courier.Json.Value

/-!
# Objects

A member that is put into an object is found there, the others stay, and the keys stay in order. An object is
made of its members in order.
-/

namespace Courier.Object

def Sorted (o : Object) : Prop := (o.map Prod.fst).Pairwise (· < ·)

variable {o : Object} {key k : String} {value : Json}

theorem get?_cons (m : String × Json) (o : Object) (k : String) :
    get? (m :: o) k = if k = m.1 then some m.2 else o.get? k := by
  unfold get?
  rw [List.lookup_cons]
  by_cases h : k = m.1
  · simp [h]
  · rw [if_neg h, beq_eq_false_iff_ne.mpr h]

theorem get?_set_self (o : Object) (key : String) (value : Json) : (o.set key value).get? key = some value := by
  induction o with
  | nil => simp [set, get?_cons]
  | cons m rest ih =>
    obtain ⟨k, v⟩ := m
    unfold set
    split
    · simp [get?_cons]
    · split
      · simp [get?_cons]
      · next hk => simpa [get?_cons, hk] using ih

theorem get?_set_ne (o : Object) {key k : String} (value : Json) (hk : k ≠ key) :
    (o.set key value).get? k = o.get? k := by
  induction o with
  | nil => simp [set, get?_cons, hk]
  | cons m rest ih =>
    obtain ⟨l, v⟩ := m
    unfold set
    split
    · simp [get?_cons, hk]
    · split
      · next hl => subst hl; simp [get?_cons, hk]
      · rw [get?_cons, get?_cons, ih]

theorem set_set (key : String) (v w : Json) (o : Object) : (o.set key v).set key w = o.set key w := by
  induction o with
  | nil => simp [set]
  | cons m o ih =>
    obtain ⟨k, u⟩ := m
    by_cases hl : key < k
    · simp [set, hl]
    · by_cases hk : key = k
      · simp [set, hk]
      · simp [set, hl, hk, ih]

theorem mem_set_fst (h : k ∈ (o.set key value).map Prod.fst) : k = key ∨ k ∈ o.map Prod.fst := by
  induction o with
  | nil => exact .inl (by simpa [set] using h)
  | cons m rest ih =>
    obtain ⟨l, v⟩ := m
    unfold set at h
    split at h
    · simpa using h
    · split at h
      · rcases List.mem_cons.mp h with h | h
        · exact .inl h
        · exact .inr (List.mem_cons_of_mem _ h)
      · rcases List.mem_cons.mp h with h | h
        · exact .inr (by simp [h])
        · exact (ih h).imp_right (List.mem_cons_of_mem _)

theorem Sorted.set (h : o.Sorted) (key : String) (value : Json) : (o.set key value).Sorted := by
  induction o with
  | nil => simp [Object.set, Sorted]
  | cons m rest ih =>
    obtain ⟨k, v⟩ := m
    obtain ⟨hm, hr⟩ := List.pairwise_cons.mp h
    unfold Object.set
    split
    · next hk =>
      refine List.pairwise_cons.mpr ⟨fun l hl => ?_, h⟩
      rcases List.mem_cons.mp hl with rfl | hl
      · exact hk
      · exact String.lt_trans hk (hm l hl)
    · next hk =>
      split
      · next hn => subst hn; exact h
      · next hn =>
        refine List.pairwise_cons.mpr ⟨fun l hl => ?_, ih hr⟩
        rcases mem_set_fst hl with rfl | hl
        · exact Decidable.byContradiction fun hl => hn (String.le_antisymm (String.not_lt.mp hl) (String.not_lt.mp hk))
        · exact hm l hl

theorem set_last (h : ∀ k ∈ o.map Prod.fst, k < key) : o.set key value = o ++ [(key, value)] := by
  induction o with
  | nil => rfl
  | cons m rest ih =>
    obtain ⟨k, v⟩ := m
    have hk : k < key := h k (by simp)
    have hn : ¬ key = k := by
      rintro rfl
      exact String.lt_irrefl _ hk
    rw [set, if_neg (String.lt_asymm hk), if_neg hn, ih fun l hl => h l (List.mem_cons_of_mem _ hl)]
    rfl

theorem ofList_append {done : Object} {members : List (String × Json)} (h : Sorted (done ++ members)) :
    members.foldl (fun (o : Object) m => o.set m.1 m.2) done = done ++ members := by
  induction members generalizing done with
  | nil => simp
  | cons m members ih =>
    have hl : done.set m.1 m.2 = done ++ [m] := by
      refine set_last fun k hk => ?_
      simp only [Sorted, List.map_append, List.map_cons] at h
      exact (List.pairwise_append.mp h).2.2 k hk m.1 (by simp)
    rw [List.foldl_cons, hl, ih (by simpa using h)]
    simp

theorem ofList_of_sorted {members : List (String × Json)} (h : Sorted members) : ofList members = members :=
  ofList_append h

end Courier.Object

import Courier.Sums

/-!
# Tallies

A count per key. Counts are 64-bit words and wrap. A key has a count from the first time that something is
added to it.
-/

namespace Courier

structure Tally (κ : Type) where
  counts : List (κ × UInt64)
  /-- No key has two counts. -/
  distinct : (counts.map Prod.fst).Nodup

namespace Tally

variable {κ : Type} [DecidableEq κ]

def empty : Tally κ := ⟨[], .nil⟩

instance : Inhabited (Tally κ) := ⟨empty⟩

def get (t : Tally κ) (key : κ) : UInt64 := (t.counts.lookup key).getD 0

def bump (key : κ) (n : UInt64) : List (κ × UInt64) → List (κ × UInt64)
  | [] => [(key, n)]
  | (k, m) :: rest => if key = k then (k, m + n) :: rest else (k, m) :: bump key n rest

theorem mem_bump_fst {key k : κ} {n : UInt64} {counts : List (κ × UInt64)}
    (h : k ∈ (bump key n counts).map Prod.fst) : k = key ∨ k ∈ counts.map Prod.fst := by
  fun_induction bump key n counts with
  | case1 => simpa using h
  | case2 m rest => exact .inr h
  | case3 k' m rest hk ih =>
    rcases List.mem_cons.mp h with rfl | h
    · exact .inr (by simp)
    · rcases ih h with rfl | h
      · exact .inl rfl
      · exact .inr (List.mem_cons_of_mem _ h)

theorem nodup_bump (key : κ) (n : UInt64) {counts : List (κ × UInt64)} (h : (counts.map Prod.fst).Nodup) :
    ((bump key n counts).map Prod.fst).Nodup := by
  fun_induction bump key n counts with
  | case1 => simp
  | case2 m rest => exact h
  | case3 k m rest hk ih =>
    obtain ⟨hm, hr⟩ := List.nodup_cons.mp h
    refine List.nodup_cons.mpr ⟨fun hb => ?_, ih hr⟩
    rcases mem_bump_fst hb with rfl | hb
    · exact hk rfl
    · exact hm hb

def add (t : Tally κ) (key : κ) (n : UInt64) : Tally κ :=
  if n = 0 then t else ⟨bump key n t.counts, nodup_bump key n t.distinct⟩

/-- As `add`, where the count is a plain word. -/
def merge (t : Tally κ) (s : Sums) (key : κ) (n : UInt64) : Except Overflow (Tally κ) := do
  let _ ← s.add (t.get key) n
  return t.add key n

/-- All counts together, modulo `2^64`. -/
def sum (t : Tally κ) : UInt64 := (t.counts.map Prod.snd).sum

def total (t : Tally κ) (s : Sums) : Except Overflow UInt64 := s.total (t.counts.map Prod.snd)

def isZero (t : Tally κ) : Bool := t.counts.all (·.2 == 0)

def nonzero (t : Tally κ) : List (κ × UInt64) := t.counts.filter (·.2 != 0)

def take (t : Tally κ) (key : κ) : UInt64 × Tally κ :=
  (t.get key, ⟨t.counts.map fun c => (c.1, if key = c.1 then 0 else c.2), by rw [List.map_map]; exact t.distinct⟩)

def takeAll (t : Tally κ) : List (κ × UInt64) × Tally κ :=
  (t.nonzero, ⟨t.counts.map fun c => (c.1, 0), by rw [List.map_map]; exact t.distinct⟩)

end Tally

end Courier

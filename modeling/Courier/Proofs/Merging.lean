import Courier.Proofs.ReadBack

/-!
# Merged counts

The counts of one kind are merged by adding words. An entry of a report is what its counts add up to as long as a word
holds that. Beyond that checked sums stop, and there is no report. Without checks the entry is the remainder modulo
`2^64`, which may be zero.
-/

namespace Courier

namespace Tally

theorem sum_toNat (ns : List UInt64) : ns.sum.toNat = (ns.map UInt64.toNat).sum % 2 ^ 64 := by
  induction ns with
  | nil => rfl
  | cons n ns ih =>
    rw [List.sum_cons, List.map_cons, List.sum_cons, UInt64.toNat_add, ih]
    omega

section
variable {κ : Type} [DecidableEq κ]

theorem weight_toNat (key : κ) (counts : List (κ × UInt64)) :
    (weight key counts).toNat = fullWeight key counts % 2 ^ 64 := by
  unfold weight fullWeight
  rw [sum_toNat, List.map_map]
  rfl

theorem mem_fst_bump {key k : κ} {n : UInt64} {counts : List (κ × UInt64)} :
    k ∈ (bump key n counts).map Prod.fst ↔ k = key ∨ k ∈ counts.map Prod.fst := by
  constructor
  · exact mem_bump_fst
  · intro h
    induction counts with
    | nil => simpa [bump] using h
    | cons c counts ih =>
      unfold bump
      by_cases hk : key = c.1
      · rw [if_pos hk]
        subst hk
        simpa using h
      · rw [if_neg hk]
        rw [List.map_cons, List.mem_cons] at h ⊢
        rcases h with h | h | h
        · exact .inr (ih (.inl h))
        · exact .inl h
        · exact .inr (ih (.inr h))

theorem mem_fst_addAll {t : Tally κ} {key : κ} {counts : List (κ × UInt64)} :
    key ∈ (counts.foldl (fun (t : Tally κ) c => t.add c.1 c.2) t).counts.map Prod.fst ↔
      key ∈ t.counts.map Prod.fst ∨ 0 < fullWeight key counts := by
  induction counts generalizing t with
  | nil => simp [fullWeight]
  | cons c counts ih =>
    rw [List.foldl_cons, ih, fullWeight_cons]
    by_cases hz : c.2 = 0
    · rw [add, if_pos hz, hz]
      simp
    · have hadd : key ∈ (t.add c.1 c.2).counts.map Prod.fst ↔ key = c.1 ∨ key ∈ t.counts.map Prod.fst := by
        rw [add, if_neg hz]
        exact mem_fst_bump
      have hpos : 0 < c.2.toNat := UInt64.lt_iff_toNat_lt.mp (UInt64.pos_iff_ne_zero.mpr hz)
      rw [hadd]
      by_cases hk : key = c.1
      · subst hk
        simp [hpos]
      · simp [hk, Ne.symm hk]

theorem mem_fst_iff {key : κ} {counts : List (κ × UInt64)} :
    key ∈ counts.map Prod.fst ↔ ∃ n, counts.lookup key = some n := by
  rw [← Option.ne_none_iff_exists', ne_eq, List.lookup_eq_none_iff]
  simp

end

end Tally

open Tally (weight fullWeight)

namespace LossReport

variable {r : LossReport} {s : Sums} {counts : List (Loss × UInt64)} {now : Timestamp}

theorem mem_entries {c : Loss × UInt64} : c ∈ r.entries ↔ r.losses.counts.lookup c.1 = some c.2 := by
  obtain ⟨l, n⟩ := c
  unfold entries
  rw [List.mem_filterMap]
  constructor
  · rintro ⟨k, -, hk⟩
    obtain ⟨m, hm, hc⟩ := Option.map_eq_some_iff.mp hk
    cases hc
    exact hm
  · intro h
    exact ⟨l, l.mem_all, by rw [h]; rfl⟩

theorem mem_fst_entries {l : Loss} : l ∈ r.entries.map Prod.fst ↔ l ∈ r.losses.counts.map Prod.fst := by
  rw [Tally.mem_fst_iff, Tally.mem_fst_iff, lookup_entries]

/-! ## What a report is made of -/

theorem losses_merged? (h : merged? now counts = some r) :
    r.losses = counts.foldl (fun (t : Tally Loss) c => t.add c.1 c.2) .empty ∧ r.losses.counts ≠ [] := by
  unfold merged? ofLosses? at h
  split at h
  · cases h
  · next he =>
    cases h
    exact ⟨rfl, fun hn => he (List.isEmpty_iff.mpr hn)⟩

theorem mem_fst_merged? (h : merged? now counts = some r) {l : Loss} :
    l ∈ r.entries.map Prod.fst ↔ 0 < fullWeight l counts := by
  rw [mem_fst_entries, (losses_merged? h).1, Tally.mem_fst_addAll]
  simp [Tally.empty]

theorem entries_merged? (h : merged? now counts = some r) : r.entries ≠ [] := by
  intro hn
  obtain ⟨c, hc⟩ := List.exists_mem_of_ne_nil _ (losses_merged? h).2
  have hm : c.1 ∈ r.entries.map Prod.fst := mem_fst_entries.mpr (List.mem_map_of_mem hc)
  rw [hn] at hm
  cases hm

theorem toNat_merged? (h : merged? now counts = some r) {c : Loss × UInt64} (hc : c ∈ r.entries) :
    c.2.toNat = fullWeight c.1 counts % 2 ^ 64 := by
  have hq := quantity_merged? now counts c.1
  rw [h, Option.map_some, Option.getD_some, quantity, Tally.get, mem_entries.mp hc, Option.getD_some] at hq
  rw [hq, Tally.weight_toNat]

theorem merged?_eq_none (h : merged? now counts = none) (l : Loss) : fullWeight l counts = 0 := by
  by_contra hl
  have hm := (Tally.mem_fst_addAll (t := .empty)).mpr (.inr (Nat.pos_of_ne_zero hl))
  unfold merged? ofLosses? at h
  split at h
  · next he =>
    rw [List.isEmpty_iff.mp he] at hm
    cases hm
  · cases h

/-! ## What a report says -/

/-- An entry for each kind that something was counted of. It says how much that was if a word can say it. -/
structure Merges (r : LossReport) (counts : List (Loss × UInt64)) : Prop where
  nonempty : r.entries ≠ []
  kinds : ∀ l, l ∈ r.entries.map Prod.fst ↔ 0 < fullWeight l counts
  remainder : ∀ c ∈ r.entries, c.2.toNat = fullWeight c.1 counts % 2 ^ 64
  exact : ∀ c ∈ r.entries, fullWeight c.1 counts < 2 ^ 64 → 0 < c.2 ∧ c.2.toNat = fullWeight c.1 counts

theorem merges_merged? (h : merged? now counts = some r) : r.Merges counts := by
  refine ⟨entries_merged? h, fun l => mem_fst_merged? h, fun c hc => toNat_merged? h hc, ?_⟩
  intro c hc hw
  have hn := toNat_merged? h hc
  rw [Nat.mod_eq_of_lt hw] at hn
  have hpos : 0 < fullWeight c.1 counts := (mem_fst_merged? h).mp (List.mem_map_of_mem hc)
  refine ⟨?_, hn⟩
  rw [UInt64.lt_iff_toNat_lt, hn]
  exact hpos

/-- What counts come to. -/
inductive Comes (s : Sums) (counts : List (Loss × UInt64)) : Except Overflow (Option LossReport) → Prop
  | stopped (l : Loss) (checked : s = .checked) (exceeds : 2 ^ 64 ≤ fullWeight l counts) : Comes s counts (.error {})
  | nothing (zero : ∀ l, fullWeight l counts = 0) : Comes s counts (.ok none)
  | report (r : LossReport) (fits : s = .checked → ∀ l, fullWeight l counts < 2 ^ 64) (merges : r.Merges counts) :
      Comes s counts (.ok (some r))

theorem comes_ofCounts? (s : Sums) (counts : List (Loss × UInt64)) (now : Timestamp) :
    Comes s counts (ofCounts? s now counts) := by
  by_cases hf : s = .checked → ∀ l, fullWeight l counts < 2 ^ 64
  · rw [ofCounts?_eq_merged? hf]
    cases hm : merged? now counts with
    | none => exact .nothing (merged?_eq_none hm)
    | some r => exact .report r hf (merges_merged? hm)
  · simp only [not_forall, Nat.not_lt] at hf
    obtain ⟨rfl, l, hl⟩ := hf
    rw [ofCounts?_overflow hl]
    exact .stopped l rfl hl

theorem Comes.report_of_fits {x : Except Overflow (Option LossReport)} (h : Comes s counts x)
    (hf : ∀ l, fullWeight l counts < 2 ^ 64) (hpos : ∃ l, 0 < fullWeight l counts) : ∃ r, x = .ok (some r) := by
  cases h with
  | stopped l _ exceeds => exact absurd (hf l) (Nat.not_lt_of_le exceeds)
  | nothing zero =>
    obtain ⟨l, hl⟩ := hpos
    exact absurd hl (zero l ▸ Nat.lt_irrefl 0)
  | report r => exact ⟨r, rfl⟩

theorem ofText?_eq {text : String} (h : (Document.ofString? text).bind listed? = some (now, counts)) :
    ofText? s text = ofCounts? s now counts := by
  obtain ⟨d, hd, hl⟩ := Option.bind_eq_some_iff.mp h
  unfold ofText? ofDocument?
  rw [hd]
  simp only [hl]

/-- Whatever is counted, and however often of a kind. With checked sums a report is made of counts, or a written one is
read, only if what was counted of each kind is less than `2^64`; it then has an entry for exactly the kinds that
something was counted of, which is their sum and so not zero. More than that stops the program. Without checks
there is a report whenever anything was counted, and an entry is the remainder where the sum is not less. -/
theorem merges_within_words (s : Sums) (counts : List (Loss × UInt64)) :
    (∀ now, Comes s counts (ofCounts? s now counts)) ∧
    ((∀ l, fullWeight l counts < 2 ^ 64) → (∃ l, 0 < fullWeight l counts) →
      ∀ now, ∃ r, ofCounts? s now counts = .ok (some r)) ∧
    ∀ text now, (Document.ofString? text).bind listed? = some (now, counts) →
      ofText? s text = ofCounts? s now counts := by
  refine ⟨fun now => comes_ofCounts? s counts now, fun hf hpos now => ?_, fun text now ht => ofText?_eq ht⟩
  exact (comes_ofCounts? s counts now).report_of_fits hf hpos

/-- Two transactions and five more, and no span. -/
def repeatedCounts : List (Loss × UInt64) :=
  [(⟨.networkError, .transaction⟩, 2), (⟨.networkError, .transaction⟩, 5), (⟨.sampleRate, .span⟩, 0)]

def repeatedText : String :=
  "\x7b\"timestamp\":12.0,\"discarded_events\":[" ++
    "\x7b\"reason\":\"network_error\",\"category\":\"transaction\",\"quantity\":2\x7d," ++
    "\x7b\"reason\":\"network_error\",\"category\":\"transaction\",\"quantity\":5\x7d," ++
    "\x7b\"reason\":\"sample_rate\",\"category\":\"span\",\"quantity\":0\x7d]\x7d"

theorem merges_within_words_repeated :
    (Document.ofString? repeatedText).bind listed? = some (⟨12000⟩, repeatedCounts) ∧
    ∃ r, ofText? .checked repeatedText = .ok (some r) ∧ ofText? .wrapping repeatedText = .ok (some r) ∧
      r.Merges repeatedCounts ∧ r.entries = [(⟨.networkError, .transaction⟩, 7)] := by
  have hs : (Document.ofString? repeatedText).bind listed? = some (⟨12000⟩, repeatedCounts) := by decide +kernel
  have hall : ∀ l ∈ Loss.all, fullWeight l repeatedCounts < 2 ^ 64 := by decide +kernel
  have hf : ∀ l, fullWeight l repeatedCounts < 2 ^ 64 := fun l => hall l l.mem_all
  have hpos : ∃ l, 0 < fullWeight l repeatedCounts := ⟨⟨.networkError, .transaction⟩, by decide⟩
  obtain ⟨hcomes, hmade, hread⟩ := merges_within_words .checked repeatedCounts
  obtain ⟨-, -, hread'⟩ := merges_within_words .wrapping repeatedCounts
  obtain ⟨r, hr⟩ := hmade hf hpos ⟨12000⟩
  have he : (ofCounts? .checked ⟨12000⟩ repeatedCounts).map (·.map entries) =
      .ok (some [(⟨.networkError, .transaction⟩, 7)]) := by
    decide +kernel
  have hw : ofCounts? .wrapping ⟨12000⟩ repeatedCounts = ofCounts? .checked ⟨12000⟩ repeatedCounts := by
    rw [ofCounts?_eq_merged? fun _ => hf, ofCounts?_eq_merged? fun _ => hf]
  have hm := hcomes ⟨12000⟩
  rw [hr] at hm he hw
  cases hm with
  | report _ _ merges =>
    refine ⟨hs, r, ?_, ?_, merges, Option.some.inj (Except.ok.inj he)⟩
    · rw [hread repeatedText ⟨12000⟩ hs, hr]
    · rw [hread' repeatedText ⟨12000⟩ hs, hw]

/-- Counts that add up to `2^64` leave an entry of zero without checks, and counts beyond it an entry of the rest.
With checks they stop the program. -/
theorem merges_to_zero :
    fullWeight (Loss.mk .sendError .error)
      [(⟨.sendError, .error⟩, 18446744073709551615), (⟨.sendError, .error⟩, 1)] = 2 ^ 64 ∧
    (ofCounts? .wrapping ⟨1000⟩ [(⟨.sendError, .error⟩, 18446744073709551615), (⟨.sendError, .error⟩, 1)]).map
      (·.map entries) = .ok (some [(⟨.sendError, .error⟩, 0)]) ∧
    (ofCounts? .wrapping ⟨1000⟩ [(⟨.sendError, .error⟩, 18446744073709551615), (⟨.sendError, .error⟩, 5)]).map
      (·.map entries) = .ok (some [(⟨.sendError, .error⟩, 4)]) ∧
    (ofCounts? .checked ⟨1000⟩ [(⟨.sendError, .error⟩, 18446744073709551615), (⟨.sendError, .error⟩, 1)]).map
      (·.map entries) = .error {} := by
  decide +kernel

end LossReport

end Courier

import Courier.Delivery.Depot

/-!
# Counts

A ledger as a function of the loss that is counted: what is recorded adds to it, a report takes all of it out,
and a report that comes back puts it in again. Sums over all losses are what envelopes and reports count to.
-/

namespace Courier

namespace Tally

section
variable {κ : Type} [DecidableEq κ]

/-- What a list of counts adds to the count of one key. -/
def weight (key : κ) (counts : List (κ × UInt64)) : UInt64 := ((counts.filter (·.1 = key)).map Prod.snd).sum

@[simp] theorem weight_nil (key : κ) : weight key [] = 0 := rfl

theorem weight_cons (key : κ) (c : κ × UInt64) (counts : List (κ × UInt64)) :
    weight key (c :: counts) = (if c.1 = key then c.2 else 0) + weight key counts := by
  by_cases h : c.1 = key <;> simp [weight, h]

theorem weight_bump (l key : κ) (n : UInt64) (counts : List (κ × UInt64)) :
    weight l (bump key n counts) = weight l counts + if key = l then n else 0 := by
  fun_induction bump key n counts with
  | case1 => simp [weight_cons]
  | case2 m rest =>
    simp only [weight_cons]
    split
    · grind
    · simp
  | case3 k m rest hk ih =>
    simp only [weight_cons, ih]
    grind

theorem weight_eq_zero {key : κ} {counts : List (κ × UInt64)} (h : key ∉ counts.map Prod.fst) :
    weight key counts = 0 := by
  induction counts with
  | nil => rfl
  | cons c counts ih =>
    simp only [List.map_cons, List.mem_cons, not_or] at h
    rw [weight_cons, if_neg (Ne.symm h.1), ih h.2]
    rfl

theorem weight_eq_lookup (key : κ) {counts : List (κ × UInt64)} (h : (counts.map Prod.fst).Nodup) :
    weight key counts = (counts.lookup key).getD 0 := by
  induction counts with
  | nil => rfl
  | cons c counts ih =>
    obtain ⟨hm, hr⟩ := List.nodup_cons.mp h
    rw [weight_cons, List.lookup_cons]
    by_cases hk : c.1 = key
    · subst hk
      simp [weight_eq_zero hm]
    · rw [if_neg hk, ih hr, show (key == c.1) = false by simpa using Ne.symm hk]
      simp

theorem get_eq_weight (t : Tally κ) (key : κ) : t.get key = weight key t.counts :=
  (weight_eq_lookup key t.distinct).symm

theorem get_add (t : Tally κ) (l key : κ) (n : UInt64) : (t.add key n).get l = t.get l + if key = l then n else 0 := by
  unfold add
  split
  · next h => simp [h]
  · simp only [get_eq_weight]
    exact weight_bump l key n t.counts

theorem get_addAll (t : Tally κ) (l : κ) (counts : List (κ × UInt64)) :
    (counts.foldl (fun t c => t.add c.1 c.2) t).get l = t.get l + weight l counts := by
  induction counts generalizing t with
  | nil => simp
  | cons c counts ih => rw [List.foldl_cons, ih, get_add, weight_cons]; grind

theorem weight_nonzero (t : Tally κ) (l : κ) : weight l t.nonzero = t.get l := by
  rw [get_eq_weight, nonzero]
  induction t.counts with
  | nil => rfl
  | cons c counts ih =>
    rw [List.filter_cons]
    split
    · rw [weight_cons, weight_cons, ih]
    · next h =>
      have hc : c.2 = 0 := by simpa using h
      rw [weight_cons, ih, hc]
      simp

theorem weight_map_zero (l : κ) (counts : List (κ × UInt64)) : weight l (counts.map fun c => (c.1, 0)) = 0 := by
  induction counts with
  | nil => rfl
  | cons c counts ih => rw [List.map_cons, weight_cons, ih]; simp

theorem get_takeAll (t : Tally κ) (l : κ) : t.takeAll.2.get l = 0 := by
  rw [get_eq_weight]
  exact weight_map_zero l t.counts

/-! ### Counts as plain words -/

/-- What a list of counts adds up to for one key, however much that is. -/
def fullWeight (key : κ) (counts : List (κ × UInt64)) : Nat :=
  ((counts.filter (·.1 = key)).map fun c => c.2.toNat).sum

theorem fullWeight_cons (key : κ) (c : κ × UInt64) (counts : List (κ × UInt64)) :
    fullWeight key (c :: counts) = (if c.1 = key then c.2.toNat else 0) + fullWeight key counts := by
  unfold fullWeight
  rw [List.filter_cons]
  by_cases hk : c.1 = key
  · simp [hk]
  · simp [hk]

theorem fullWeight_lt {counts : List (κ × UInt64)} (hn : (counts.map Prod.fst).Nodup) (key : κ) :
    fullWeight key counts < 2 ^ 64 := by
  induction counts with
  | nil => exact Nat.two_pow_pos 64
  | cons c counts ih =>
    obtain ⟨hc, hn⟩ := List.nodup_cons.mp hn
    rw [fullWeight_cons]
    by_cases hk : c.1 = key
    · have hz : fullWeight key counts = 0 := by
        unfold fullWeight
        rw [List.filter_eq_nil_iff.mpr fun d hd => ?_]
        · rfl
        · intro he
          exact hc (hk ▸ of_decide_eq_true he ▸ List.mem_map_of_mem hd)
      rw [if_pos hk, hz]
      exact c.2.toNat_lt
    · rw [if_neg hk, Nat.zero_add]
      exact ih hn

theorem merge_eq (t : Tally κ) (s : Sums) (key : κ) (n : UInt64) :
    t.merge s key n =
      if s = .checked ∧ 2 ^ 64 ≤ (t.get key).toNat + n.toNat then .error {} else .ok (t.add key n) := by
  unfold merge Sums.add
  split
  · rfl
  · rfl

theorem get_add_toNat {t : Tally κ} {key : κ} {n : UInt64} (h : (t.get key).toNat + n.toNat < 2 ^ 64) (l : κ) :
    ((t.add key n).get l).toNat = (t.get l).toNat + if key = l then n.toNat else 0 := by
  rw [get_add]
  by_cases hl : key = l
  · subst hl
    rw [if_pos rfl, if_pos rfl, UInt64.toNat_add]
    omega
  · rw [if_neg hl, if_neg hl, UInt64.toNat_add]
    simp

/-- Where every sum fits, checks change nothing. -/
theorem foldlM_merge {s : Sums} {t : Tally κ} {counts : List (κ × UInt64)}
    (h : s = .checked → ∀ key, (t.get key).toNat + fullWeight key counts < 2 ^ 64) :
    counts.foldlM (fun (t : Tally κ) c => t.merge s c.1 c.2) t =
      .ok (counts.foldl (fun (t : Tally κ) c => t.add c.1 c.2) t) := by
  induction counts generalizing t with
  | nil => rfl
  | cons c counts ih =>
    have hfits : s = .checked → (t.get c.1).toNat + c.2.toNat < 2 ^ 64 := by
      intro hs
      have hc := h hs c.1
      rw [fullWeight_cons, if_pos rfl] at hc
      omega
    rw [List.foldlM_cons, merge_eq, if_neg fun hn => Nat.not_le_of_lt (hfits hn.1) hn.2]
    refine ih fun hs key => ?_
    have hk := h hs key
    rw [fullWeight_cons] at hk
    rw [get_add_toNat (hfits hs)]
    omega

/-- Where one does not, they stop it. -/
theorem foldlM_merge_overflow {t : Tally κ} {counts : List (κ × UInt64)} {key : κ}
    (h : 2 ^ 64 ≤ (t.get key).toNat + fullWeight key counts) :
    counts.foldlM (fun (t : Tally κ) c => t.merge .checked c.1 c.2) t = .error {} := by
  induction counts generalizing t with
  | nil => exact absurd h (Nat.not_le_of_lt (t.get key).toNat_lt)
  | cons c counts ih =>
    rw [List.foldlM_cons, merge_eq]
    by_cases hc : 2 ^ 64 ≤ (t.get c.1).toNat + c.2.toNat
    · rw [if_pos ⟨rfl, hc⟩]
      rfl
    · rw [if_neg fun hn => hc hn.2]
      refine ih ?_
      rw [fullWeight_cons] at h
      rw [get_add_toNat (Nat.lt_of_not_le hc)]
      omega

end

/-! ## Sums over all losses -/

theorem sum_map_add {α : Type} (ls : List α) (f g : α → UInt64) :
    (ls.map fun l => f l + g l).sum = (ls.map f).sum + (ls.map g).sum := by
  induction ls with
  | nil => rfl
  | cons l ls ih => simp only [List.map_cons, List.sum_cons, ih]; grind

theorem sum_map_zero {α : Type} (ls : List α) : (ls.map fun _ => (0 : UInt64)).sum = 0 := by
  induction ls with
  | nil => rfl
  | cons l ls ih => simp only [List.map_cons, List.sum_cons, ih]; rfl

theorem sum_map_sum {α β : Type} (ls : List α) (xs : List β) (f : β → α → UInt64) :
    (ls.map fun l => (xs.map fun x => f x l).sum).sum = (xs.map fun x => (ls.map (f x)).sum).sum := by
  induction xs with
  | nil => exact sum_map_zero ls
  | cons x xs ih => simp only [List.map_cons, List.sum_cons, sum_map_add, ih]

theorem sum_map_single {α : Type} [DecidableEq α] (k : α) (n : UInt64) {ls : List α} (hn : ls.Nodup) (hm : k ∈ ls) :
    (ls.map fun l => if k = l then n else 0).sum = n := by
  induction ls with
  | nil => cases hm
  | cons l ls ih =>
    obtain ⟨hl, hn⟩ := List.nodup_cons.mp hn
    simp only [List.map_cons, List.sum_cons]
    by_cases hk : k = l
    · subst hk
      have hz : (ls.map fun l => if k = l then n else 0) = ls.map fun _ => 0 :=
        List.map_congr_left fun l h => if_neg fun hk : k = l => hl (hk ▸ h)
      rw [if_pos rfl, hz, sum_map_zero]
      simp
    · rw [if_neg hk, ih hn ((List.mem_cons.mp hm).resolve_left hk)]
      simp

theorem sum_weight (counts : List (Loss × UInt64)) :
    (Loss.all.map fun l => weight l counts).sum = (counts.map Prod.snd).sum := by
  induction counts with
  | nil => exact sum_map_zero _
  | cons c counts ih =>
    simp only [weight_cons, List.map_cons, List.sum_cons]
    rw [sum_map_add, sum_map_single c.1 c.2 (by decide +kernel) c.1.mem_all, ih]

theorem sum_get (t : Tally Loss) : (Loss.all.map t.get).sum = t.sum := by
  rw [show t.get = fun l => weight l t.counts from funext fun l => t.get_eq_weight l, sum_weight]
  rfl

end Tally

open Tally (weight)

/-! ## Envelopes -/

def Envelope.countOf (e : Envelope) (c : Category) : UInt64 :=
  ((e.telemetry.filter (·.category = c)).map Item.count).sum

/-- What an envelope adds to the count of a loss when it is counted under this reason, or not at all. -/
def Envelope.lossAs (e : Envelope) (reason? : Option LossReason) (l : Loss) : UInt64 :=
  if reason? = some l.reason then e.countOf l.category else 0

theorem Envelope.weight_losses (e : Envelope) (reason : LossReason) (l : Loss) :
    weight l (e.losses reason) = e.lossAs (some reason) l := by
  unfold losses lossAs countOf
  induction e.telemetry with
  | nil => simp
  | cons i items ih =>
    obtain ⟨r, c⟩ := l
    simp only [List.map_cons, Tally.weight_cons, ih, Loss.mk.injEq, Option.some.injEq]
    by_cases hr : reason = r
    · by_cases hc : i.category = c <;> simp [hr, hc]
    · simp [hr]

theorem Envelope.sum_lossAs (e : Envelope) (reason : LossReason) :
    (Loss.all.map (e.lossAs (some reason))).sum = e.telemetrySum := by
  rw [show e.lossAs (some reason) = fun l => weight l (e.losses reason) from
    funext fun l => (e.weight_losses reason l).symm, Tally.sum_weight, losses, List.map_map]
  rfl

theorem Envelope.sum_lossAs? (e : Envelope) (reason? : Option LossReason) :
    (Loss.all.map (e.lossAs reason?)).sum = if reason?.isSome then e.telemetrySum else 0 := by
  cases reason? with
  | none => exact Tally.sum_map_zero Loss.all
  | some reason => exact e.sum_lossAs reason

/-! ## Reports -/

namespace LossReport

theorem weight_filterMap (t : Tally Loss) (l : Loss) (ls : List Loss) (hn : ls.Nodup) :
    weight l (ls.filterMap fun k => (t.counts.lookup k).map fun n => (k, n)) = if l ∈ ls then t.get l else 0 := by
  induction ls with
  | nil => rfl
  | cons k ls ih =>
    obtain ⟨hk, hn⟩ := List.nodup_cons.mp hn
    rw [List.filterMap_cons]
    cases hl : t.counts.lookup k with
    | none =>
      simp only [Option.map_none, ih hn]
      by_cases h : l = k
      · subst h
        simp [hk, Tally.get, hl]
      · simp [h]
    | some n =>
      simp only [Option.map_some, Tally.weight_cons, ih hn]
      by_cases h : k = l
      · subst h
        simp [hk, Tally.get, hl]
      · simp [h, Ne.symm h]

theorem weight_entries (r : LossReport) (l : Loss) : weight l r.entries = r.quantity l := by
  rw [entries, weight_filterMap r.losses l Loss.all (by decide +kernel), if_pos l.mem_all]
  rfl

theorem quantity_merged? (now : Timestamp) (counts : List (Loss × UInt64)) (l : Loss) :
    ((merged? now counts).map (·.quantity l)).getD 0 = weight l counts := by
  have h := Tally.get_addAll .empty l counts
  rw [show (Tally.empty : Tally Loss).get l = 0 from rfl, UInt64.zero_add] at h
  rw [← h]
  unfold merged? ofLosses?
  split
  · next he => simp [Tally.get, List.isEmpty_iff.mp he]
  · rfl

theorem ofCounts?_eq_merged? {s : Sums} {counts : List (Loss × UInt64)}
    (h : s = .checked → ∀ l, Tally.fullWeight l counts < 2 ^ 64) (now : Timestamp) :
    ofCounts? s now counts = .ok (merged? now counts) := by
  have hfits (hs : s = .checked) (l : Loss) :
      ((Tally.empty : Tally Loss).get l).toNat + Tally.fullWeight l counts < 2 ^ 64 := by
    rw [show (Tally.empty : Tally Loss).get l = 0 from rfl, UInt64.toNat_zero, Nat.zero_add]
    exact h hs l
  unfold ofCounts?
  rw [Tally.foldlM_merge hfits]
  rfl

theorem ofCounts?_overflow {counts : List (Loss × UInt64)} {l : Loss} (h : 2 ^ 64 ≤ Tally.fullWeight l counts)
    (now : Timestamp) : ofCounts? .checked now counts = .error {} := by
  have hfull : 2 ^ 64 ≤ ((Tally.empty : Tally Loss).get l).toNat + Tally.fullWeight l counts := by
    rw [show (Tally.empty : Tally Loss).get l = 0 from rfl, UInt64.toNat_zero, Nat.zero_add]
    exact h
  unfold ofCounts?
  rw [Tally.foldlM_merge_overflow hfull]
  rfl

theorem merged?_of_ofCounts? {s : Sums} {counts : List (Loss × UInt64)} {now : Timestamp} {r? : Option LossReport}
    (h : ofCounts? s now counts = .ok r?) : merged? now counts = r? := by
  by_cases hf : s = .checked → ∀ l, Tally.fullWeight l counts < 2 ^ 64
  · rw [ofCounts?_eq_merged? hf] at h
    exact Except.ok.inj h
  · obtain ⟨rfl, hover⟩ := Classical.not_imp.mp hf
    obtain ⟨l, hl⟩ := Classical.not_forall.mp hover
    rw [ofCounts?_overflow (Nat.le_of_not_lt hl)] at h
    cases h

/-- Where no loss comes twice there is nothing to add up. -/
theorem ofCounts?_distinct {counts : List (Loss × UInt64)} (hn : (counts.map Prod.fst).Nodup) (s : Sums)
    (now : Timestamp) : ofCounts? s now counts = .ok (merged? now counts) :=
  ofCounts?_eq_merged? (fun _ l => Tally.fullWeight_lt hn l) now

end LossReport

/-! ## The ledger -/

namespace Ledger

theorem recordAll_enabled (led : Ledger) (losses : List (Loss × UInt64)) :
    (led.recordAll losses).enabled = led.enabled := by
  unfold recordAll
  induction losses generalizing led with
  | nil => rfl
  | cons c losses ih => rw [List.foldl_cons, ih]; unfold record; split <;> rfl

theorem recordAll_sums (led : Ledger) (losses : List (Loss × UInt64)) : (led.recordAll losses).sums = led.sums := by
  unfold recordAll
  induction losses generalizing led with
  | nil => rfl
  | cons c losses ih => rw [List.foldl_cons, ih]; unfold record; split <;> rfl

theorem recordAll_pending {led : Ledger} (he : led.enabled = true) (losses : List (Loss × UInt64)) (l : Loss) :
    (led.recordAll losses).pending l = led.pending l + weight l losses := by
  unfold recordAll
  induction losses generalizing led with
  | nil => simp
  | cons c losses ih =>
    have hr : led.record c.1 c.2 = { led with counts := led.counts.add c.1 c.2 } := if_pos he
    have he' : ({ led with counts := led.counts.add c.1 c.2 } : Ledger).enabled = true := he
    rw [List.foldl_cons, hr, ih he', Tally.weight_cons, pending, pending, Tally.get_add]
    grind

theorem recordEnvelope_enabled (led : Ledger) (reason : LossReason) (e : Envelope) :
    (led.recordEnvelope reason e).enabled = led.enabled := led.recordAll_enabled _

theorem recordEnvelope_pending {led : Ledger} (he : led.enabled = true) (reason : LossReason) (e : Envelope)
    (l : Loss) : (led.recordEnvelope reason e).pending l = led.pending l + e.lossAs (some reason) l := by
  rw [recordEnvelope, recordAll_pending he, e.weight_losses]

theorem restore_enabled (led : Ledger) (r : LossReport) : (led.restore r).enabled = led.enabled :=
  led.recordAll_enabled _

theorem restore_pending {led : Ledger} (he : led.enabled = true) (r : LossReport) (l : Loss) :
    (led.restore r).pending l = led.pending l + r.quantity l := by
  rw [restore, recordAll_pending he, r.weight_entries]

theorem report_enabled (led : Ledger) (now : Timestamp) : (led.report now).2.enabled = led.enabled := by
  unfold report; split <;> rfl

theorem report_sums (led : Ledger) (now : Timestamp) : (led.report now).2.sums = led.sums := by
  unfold report; split <;> rfl

theorem report_pending {led : Ledger} (he : led.enabled = true) (now : Timestamp) (l : Loss) :
    (led.report now).2.pending l = 0 := by
  rw [report, if_pos he]
  exact led.counts.get_takeAll l

theorem report_quantity {led : Ledger} (he : led.enabled = true) (now : Timestamp) (l : Loss) :
    ((led.report now).1.map (·.quantity l)).getD 0 = led.pending l := by
  rw [report, if_pos he]
  exact (LossReport.quantity_merged? now led.counts.nonzero l).trans (led.counts.weight_nonzero l)

theorem sum_pending (led : Ledger) : (Loss.all.map led.pending).sum = led.pendingSum := led.counts.sum_get

end Ledger

/-! ## Riding along -/

def Outbound.carries (o : Outbound) (l : Loss) : UInt64 := (o.report.map (·.quantity l)).getD 0

namespace Depot

/-- A report rides along with all counts there were, and the ledger has none then. -/
theorem load_pending {d : Depot} (he : d.ledger.enabled = true) (b : Bool) (e : Envelope) (l : Loss) :
    (d.load b e).2.ledger.enabled = true ∧
      (d.load b e).2.ledger.pending l + (d.load b e).1.carries l = d.ledger.pending l := by
  unfold load
  split
  · have hq := d.ledger.report_quantity he d.clock.now l
    have hz := d.ledger.report_pending he d.clock.now l
    have hb := d.ledger.report_enabled d.clock.now
    generalize d.ledger.report d.clock.now = x at hq hz hb
    obtain ⟨_ | r, led⟩ := x
    · exact ⟨hb.trans he, by simpa [Outbound.carries, hz] using hq⟩
    · exact ⟨hb.trans he, by simpa [Outbound.carries, hz] using hq⟩
  · exact ⟨he, by simp [Outbound.carries]⟩

theorem load_blank {d : Depot} {b : Bool} {e : Envelope} (h : (d.load b e).1.envelope.isEmpty = true) :
    e.isEmpty = true ∧ ∀ l, (d.load b e).1.carries l = 0 := by
  unfold load at h ⊢
  split
  · next hb =>
    rw [if_pos hb] at h
    generalize d.ledger.report d.clock.now = x at h
    obtain ⟨_ | r, led⟩ := x
    · exact ⟨h, fun l => rfl⟩
    · simp [Envelope.attach, Envelope.push, Envelope.isEmpty] at h
  · next hb =>
    rw [if_neg hb] at h
    exact ⟨h, fun l => rfl⟩

theorem failed_ledger (d : Depot) (o : Outbound) (e : SendError) : (d.failed o e).ledger = (d.unload o).ledger := by
  unfold failed
  cases e <;> rfl

theorem failed_pending {d : Depot} (he : d.ledger.enabled = true) (o : Outbound) (e : SendError) (l : Loss) :
    (d.failed o e).ledger.enabled = true ∧
      (d.failed o e).ledger.pending l = d.ledger.pending l + o.carries l := by
  rw [failed_ledger, unload]
  cases hr : o.report with
  | none => exact ⟨he, by simp [Outbound.carries, hr]⟩
  | some r =>
    exact ⟨(d.ledger.restore_enabled r).trans he, by simp [Outbound.carries, hr, d.ledger.restore_pending he r l]⟩

theorem account_pending {d : Depot} (he : d.ledger.enabled = true) (reason : LossReason) (e : Envelope) (l : Loss) :
    (d.account reason e).ledger.enabled = true ∧
      (d.account reason e).ledger.pending l = d.ledger.pending l + e.lossAs (some reason) l :=
  ⟨(d.ledger.recordEnvelope_enabled reason e).trans he, d.ledger.recordEnvelope_pending he reason e l⟩

end Depot

end Courier

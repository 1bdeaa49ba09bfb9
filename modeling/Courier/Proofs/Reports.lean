import Courier.Loss.Session
import Courier.Proofs.Counts

/-!
# Reported once

Whatever is recorded in a ledger, in whatever order, stands in one report or is pending. A report has the counts that
were pending, none of which is zero, and puts them back where it is restored.
-/

namespace Courier

namespace Tally

variable {κ : Type} [DecidableEq κ]

theorem bump_of_not_mem {key : κ} {counts : List (κ × UInt64)} (h : key ∉ counts.map Prod.fst) (n : UInt64) :
    bump key n counts = counts ++ [(key, n)] := by
  induction counts with
  | nil => rfl
  | cons c counts ih =>
    simp only [List.map_cons, List.mem_cons, not_or] at h
    rw [bump, if_neg h.1, ih h.2]
    rfl

theorem counts_addAll {t : Tally κ} {counts : List (κ × UInt64)} (hn : ((t.counts ++ counts).map Prod.fst).Nodup)
    (hz : ∀ c ∈ counts, c.2 ≠ 0) :
    (counts.foldl (fun (t : Tally κ) c => t.add c.1 c.2) t).counts = t.counts ++ counts := by
  induction counts generalizing t with
  | nil => simp
  | cons c counts ih =>
    have hc : c.1 ∉ t.counts.map Prod.fst := by
      intro hm
      rw [List.map_append, List.nodup_append] at hn
      exact hn.2.2 c.1 hm c.1 (by simp) rfl
    have hadd : (t.add c.1 c.2).counts = t.counts ++ [c] := by
      unfold add
      rw [if_neg (hz c (by simp))]
      exact bump_of_not_mem hc c.2
    rw [List.foldl_cons, ih, hadd]
    · simp
    · rw [hadd]
      simpa using hn
    · intro d hd
      exact hz d (by simp [hd])

theorem lookup_cons_ne {key : κ} {c : κ × UInt64} (h : c.1 ≠ key) (counts : List (κ × UInt64)) :
    (c :: counts).lookup key = counts.lookup key := by
  rw [List.lookup_cons, beq_false_of_ne (Ne.symm h)]

theorem lookup_nonzero (t : Tally κ) (key : κ) :
    t.nonzero.lookup key = if t.get key = 0 then none else some (t.get key) := by
  obtain ⟨counts, hn⟩ := t
  unfold nonzero get
  simp only
  induction counts with
  | nil => rfl
  | cons c counts ih =>
    obtain ⟨hm, hr⟩ := List.nodup_cons.mp hn
    rw [List.filter_cons]
    by_cases hk : c.1 = key
    · subst hk
      rw [List.lookup_cons_self, Option.getD_some]
      by_cases hz : c.2 = 0
      · -- A zero is left out, and no other count has its key.
        have hnone : counts.lookup c.1 = none := by
          rw [List.lookup_eq_none_iff]
          intro d hd
          rw [bne_iff_ne]
          intro hcd
          exact hm (List.mem_map.mpr ⟨d, hd, hcd.symm⟩)
        rw [if_neg (by simp [hz]), ih hr, hnone, if_pos hz]
        rfl
      · rw [if_pos (by simpa using hz), List.lookup_cons_self, if_neg hz]
    · rw [lookup_cons_ne hk, ← ih hr]
      by_cases hz : c.2 = 0
      · rw [if_neg (by simp [hz])]
      · rw [if_pos (by simpa using hz), lookup_cons_ne hk]

omit [DecidableEq κ] in
theorem nodup_nonzero (t : Tally κ) : (t.nonzero.map Prod.fst).Nodup :=
  t.distinct.sublist (List.filter_sublist.map Prod.fst)

end Tally

namespace Ledger

variable {led : Ledger}

theorem filter_nonzero (f : Loss → UInt64) (losses : List Loss) :
    (losses.map fun l => (l, f l)).filter (·.2 != 0) =
      losses.filterMap fun l => (if f l = 0 then none else some (f l)).map fun n => (l, n) := by
  induction losses with
  | nil => rfl
  | cons l losses ih =>
    by_cases hz : f l = 0
    · simp [hz, ih]
    · simp [hz, ih]

theorem pendingList_eq (led : Ledger) :
    led.pendingList = Loss.all.filterMap fun l => (led.counts.nonzero.lookup l).map fun n => (l, n) := by
  unfold pendingList
  rw [filter_nonzero]
  simp only [Tally.lookup_nonzero]
  rfl

theorem report_entries (he : led.enabled = true) (now : Timestamp) :
    (led.report now).1.map LossReport.entries = if led.pendingList = [] then none else some led.pendingList := by
  -- The counts that are taken out are merged into the report without changing any.
  have hcounts : (led.counts.nonzero.foldl (fun (t : Tally Loss) c => t.add c.1 c.2) .empty).counts =
      led.counts.nonzero := by
    apply Tally.counts_addAll
    · exact led.counts.nodup_nonzero
    · intro c hc
      simpa using (List.mem_filter.mp hc).2
  have hreport : (led.report now).1 = LossReport.merged? now led.counts.nonzero := by
    unfold report
    rw [if_pos he]
    rfl
  rw [hreport, pendingList_eq]
  unfold LossReport.merged? LossReport.ofLosses?
  simp only [hcounts]
  by_cases hz : led.counts.nonzero = []
  · simp [hz]
  · obtain ⟨c, rest, hc⟩ := List.exists_cons_of_ne_nil hz
    have hne : (Loss.all.filterMap fun l => (led.counts.nonzero.lookup l).map fun n => (l, n)) ≠ [] := by
      intro hnil
      rw [List.filterMap_eq_nil_iff] at hnil
      have hnone := Option.map_eq_none_iff.mp (hnil c.1 c.1.mem_all)
      rw [hc, List.lookup_cons_self] at hnone
      cases hnone
    rw [if_neg hne, if_neg (by simp [hz])]
    simp [LossReport.entries, hcounts]

/-- A report of a ledger is the one that its counts are merged to, with checks or without. -/
theorem ofCounts?_nonzero (he : led.enabled = true) (s : Sums) (now : Timestamp) :
    LossReport.ofCounts? s now led.counts.nonzero = .ok (led.report now).1 := by
  rw [LossReport.ofCounts?_distinct led.counts.nodup_nonzero, report, if_pos he]
  rfl

theorem entries_of_report (he : led.enabled = true) {now : Timestamp} {r : LossReport}
    (hr : (led.report now).1 = some r) : r.entries = led.pendingList ∧ led.pendingList ≠ [] := by
  have h := led.report_entries he now
  rw [hr] at h
  by_cases hz : led.pendingList = []
  · rw [if_pos hz] at h
    cases h
  · rw [if_neg hz] at h
    exact ⟨Option.some.inj h, hz⟩

theorem pendingList_ne_zero {c : Loss × UInt64} (hc : c ∈ led.pendingList) : c.2 ≠ 0 := by
  simpa using (List.mem_filter.mp hc).2

theorem pendingList_congr {led' : Ledger} (h : ∀ l, led'.pending l = led.pending l) :
    led'.pendingList = led.pendingList := by
  unfold pendingList
  simp only [h]

theorem report_of_zero (he : led.enabled = true) (hz : ∀ l, led.pending l = 0) (now : Timestamp) :
    (led.report now).1 = none := by
  have hnil : led.pendingList = [] := by
    unfold pendingList
    simp [hz]
  have h := led.report_entries he now
  rw [hnil, if_pos rfl] at h
  exact Option.map_eq_none_iff.mp h

theorem quantity_of_report (he : led.enabled = true) {now : Timestamp} {r : LossReport}
    (hr : (led.report now).1 = some r) (l : Loss) : r.quantity l = led.pending l := by
  have h := led.report_quantity he now l
  rw [hr] at h
  exact h

/-! ## A ledger that is switched off -/

theorem recordAll_disabled (he : led.enabled = false) (losses : List (Loss × UInt64)) : led.recordAll losses = led := by
  unfold recordAll
  induction losses with
  | nil => rfl
  | cons c losses ih =>
    have hr : led.record c.1 c.2 = led := if_neg (by simp [he])
    rw [List.foldl_cons, hr, ih]

theorem report_disabled (he : led.enabled = false) (now : Timestamp) : led.report now = (none, led) :=
  if_neg (by simp [he])

end Ledger

/-! ## A ledger in use -/

inductive LedgerAct
  | record (l : Loss) (n : UInt64)
  | recordEnvelope (reason : LossReason) (e : Envelope)
  /-- A report is put back, wherever it comes from. -/
  | restore (r : LossReport)
  | report
  /-- Time passes, or the clock is set. -/
  | clock (c : Clock)

def LedgerAct.amount (l : Loss) : LedgerAct → UInt64
  | record k n => if k = l then n else 0
  | recordEnvelope reason e => if reason = l.reason then e.countOf l.category else 0
  | restore r => r.quantity l
  | report => 0
  | clock _ => 0

namespace LedgerSession

variable {s : LedgerSession}

def opened (enabled : Bool) (clock : Clock) (sums : Sums := .checked) : LedgerSession :=
  { clock, ledger := { enabled, sums } }

def act (s : LedgerSession) : LedgerAct → LedgerSession
  | .record l n => { s with ledger := s.ledger.record l n }
  | .recordEnvelope reason e => { s with ledger := s.ledger.recordEnvelope reason e }
  | .restore r => { s with ledger := s.ledger.restore r }
  | .report => s.report.2
  | .clock c => { s with clock := c }

def run (s : LedgerSession) (acts : List LedgerAct) : LedgerSession := acts.foldl act s

/-- So much was counted of each loss: it stands in the reports, all of which have entries but no zeros, or is pending. -/
structure Balanced (counted : Loss → UInt64) (s : LedgerSession) : Prop where
  enabled : s.ledger.enabled = true
  balance : ∀ l, counted l = (s.reports.map (·.quantity l)).sum + s.ledger.pending l
  proper : ∀ r ∈ s.reports, r.entries ≠ [] ∧ ∀ c ∈ r.entries, c.2 ≠ 0

variable {counted : Loss → UInt64}

theorem Balanced.count (h : s.Balanced counted) {led : Ledger} {more : Loss → UInt64} (he : led.enabled = true)
    (hp : ∀ l, led.pending l = s.ledger.pending l + more l) :
    ({ s with ledger := led } : LedgerSession).Balanced fun l => counted l + more l := by
  refine ⟨he, ?_, h.proper⟩
  intro l
  rw [h.balance, hp, UInt64.add_assoc]

theorem Balanced.report (h : s.Balanced counted) : s.report.2.Balanced counted := by
  have hreports : s.report.2.reports = s.reports ++ s.report.1.toList := rfl
  have hmade : s.report.1 = (s.ledger.report s.clock.now).1 := rfl
  refine ⟨(s.ledger.report_enabled s.clock.now).trans h.enabled, ?_, ?_⟩
  · intro l
    have hz : s.report.2.ledger.pending l = 0 := s.ledger.report_pending h.enabled s.clock.now l
    have hq := s.ledger.report_quantity h.enabled s.clock.now l
    have hsum : (s.report.1.toList.map (·.quantity l)).sum = s.ledger.pending l := by
      rw [← hq, hmade]
      cases (s.ledger.report s.clock.now).1 with
      | none => rfl
      | some r => simp
    rw [h.balance, hz, hreports, List.map_append, List.sum_append, hsum, UInt64.add_zero]
  · intro r hr
    rw [hreports, List.mem_append] at hr
    rcases hr with hr | hr
    · exact h.proper r hr
    · obtain ⟨hentries, hne⟩ := Ledger.entries_of_report h.enabled (hmade ▸ Option.mem_toList.mp hr)
      rw [hentries]
      exact ⟨hne, fun c hc => Ledger.pendingList_ne_zero hc⟩

theorem Balanced.act (h : s.Balanced counted) (a : LedgerAct) :
    (s.act a).Balanced fun l => counted l + a.amount l := by
  have hzero : (fun l => counted l + 0) = counted := by simp
  cases a with
  | record k n =>
    have hone : s.ledger.record k n = s.ledger.recordAll [(k, n)] := rfl
    apply h.count
    · rw [hone, Ledger.recordAll_enabled, h.enabled]
    · intro l
      rw [hone, Ledger.recordAll_pending h.enabled, Tally.weight_cons, Tally.weight_nil, UInt64.add_zero]
      rfl
  | recordEnvelope reason e =>
    apply h.count
    · exact (s.ledger.recordEnvelope_enabled reason e).trans h.enabled
    · intro l
      rw [Ledger.recordEnvelope_pending h.enabled]
      simp [Envelope.lossAs, LedgerAct.amount]
  | restore r =>
    apply h.count
    · exact (s.ledger.restore_enabled r).trans h.enabled
    · intro l
      exact s.ledger.restore_pending h.enabled r l
  | report =>
    simp only [LedgerAct.amount, hzero]
    exact h.report
  | clock c =>
    simp only [LedgerAct.amount, hzero]
    exact ⟨h.enabled, h.balance, h.proper⟩

theorem Balanced.run (h : s.Balanced counted) (acts : List LedgerAct) :
    (s.run acts).Balanced fun l => counted l + (acts.map (·.amount l)).sum := by
  induction acts generalizing s counted with
  | nil => simpa [LedgerSession.run] using h
  | cons a acts ih =>
    have hrest := ih (h.act a)
    simp only [List.map_cons, List.sum_cons, ← UInt64.add_assoc]
    exact hrest

theorem opened_balanced (clock : Clock) (sums : Sums) : (opened true clock sums).Balanced fun _ => 0 :=
  ⟨rfl, fun _ => rfl, nofun⟩

theorem act_disabled (he : s.ledger.enabled = false) (a : LedgerAct) :
    (s.act a).ledger = s.ledger ∧ (s.act a).reports = s.reports := by
  have hreport : s.report = (none, s) := by
    unfold report
    rw [Ledger.report_disabled he]
    simp
  cases a with
  | record k n =>
    exact ⟨Ledger.recordAll_disabled he [(k, n)], rfl⟩
  | recordEnvelope reason e => exact ⟨Ledger.recordAll_disabled he _, rfl⟩
  | restore r => exact ⟨Ledger.recordAll_disabled he _, rfl⟩
  | report =>
    unfold act
    rw [hreport]
    exact ⟨rfl, rfl⟩
  | clock c => exact ⟨rfl, rfl⟩

theorem run_disabled (he : s.ledger.enabled = false) (acts : List LedgerAct) :
    (s.run acts).ledger = s.ledger ∧ (s.run acts).reports = s.reports := by
  induction acts generalizing s with
  | nil => exact ⟨rfl, rfl⟩
  | cons a acts ih =>
    obtain ⟨hl, hr⟩ := act_disabled he a
    obtain ⟨hl', hr'⟩ := ih (s := s.act a) (hl ▸ he)
    exact ⟨hl'.trans hl, hr'.trans hr⟩

/-- Whatever is recorded, put back and reported, and whenever: all that was counted of a loss stands in the reports or
is pending, modulo `2^64`. Reports have entries but no zeros, and there is none right after another one. A report puts
back what it took out, into any ledger that is switched on, and a new ledger makes the same report of it. A ledger that
is switched off counts nothing and makes no reports. -/
theorem counted_once {clock : Clock} {sums : Sums} {acts : List LedgerAct} {s idle : LedgerSession}
    (hs : run (opened true clock sums) acts = s) (hi : run (opened false clock sums) acts = idle) :
    (∀ l, (acts.map (·.amount l)).sum = (s.reports.map (·.quantity l)).sum + s.ledger.pending l) ∧
    (∀ r ∈ s.reports, r.entries ≠ [] ∧ ∀ c ∈ r.entries, c.2 ≠ 0) ∧
    (∀ clock, (s.report.2.act (.clock clock)).report.1 = none) ∧
    (∀ r, s.report.1 = some r →
      (∀ l, s.report.2.ledger.pending l = 0 ∧ r.quantity l = s.ledger.pending l) ∧
      (∀ led : Ledger, led.enabled = true → ∀ l, (led.restore r).pending l = led.pending l + s.ledger.pending l) ∧
      ∀ now, ((({} : Ledger).restore r).report now).1.map LossReport.entries = some r.entries) ∧
    (∀ l, idle.ledger.pending l = 0) ∧ idle.ledger.pendingTotal = .ok 0 ∧ idle.reports = [] ∧ idle.report.1 = none := by
  have h := (opened_balanced clock sums).run acts
  rw [hs] at h
  have hzero (l : Loss) : s.report.2.ledger.pending l = 0 := s.ledger.report_pending h.enabled s.clock.now l
  refine ⟨?_, h.proper, ?_, ?_, ?_⟩
  · intro l
    rw [← h.balance, UInt64.zero_add]
  · intro clock
    exact Ledger.report_of_zero h.report.enabled hzero clock.now
  · intro r hr
    have hq := Ledger.quantity_of_report h.enabled hr
    have hback {led : Ledger} (he : led.enabled = true) (l : Loss) :
        (led.restore r).pending l = led.pending l + s.ledger.pending l := by
      rw [led.restore_pending he, hq]
    refine ⟨fun l => ⟨hzero l, hq l⟩, fun led he => hback he, ?_⟩
    intro now
    have he : (({} : Ledger).restore r).enabled = true := ({} : Ledger).restore_enabled r
    -- a new ledger has nothing pending but what the report puts back
    have hlist : (({} : Ledger).restore r).pendingList = s.ledger.pendingList := by
      apply Ledger.pendingList_congr
      intro l
      exact (hback rfl l).trans (UInt64.zero_add _)
    obtain ⟨hentries, hne⟩ := Ledger.entries_of_report h.enabled hr
    rw [Ledger.report_entries he, hlist, if_neg hne, hentries]
  · obtain ⟨hledger, hreports⟩ := run_disabled (s := opened false clock sums) rfl acts
    rw [hi] at hledger hreports
    refine ⟨?_, ?_, hreports, ?_⟩
    · intro l
      rw [hledger]
      rfl
    · rw [hledger]
      rfl
    · unfold report
      rw [hledger, Ledger.report_disabled rfl]

/-- A count wraps, a report comes back, and a zero is recorded. -/
def busyActs : List LedgerAct :=
  [.record ⟨.backpressure, .logItem⟩ 18446744073709551615, .record ⟨.backpressure, .logItem⟩ 3, .report, .report,
    .recordEnvelope .networkError (.ofBatch .log none (.obj []) 5),
    .restore ⟨⟨500⟩, .add .empty ⟨.backpressure, .logItem⟩ 2⟩, .record ⟨.sampleRate, .error⟩ 0, .clock ⟨⟨2000⟩⟩,
    .report, .record ⟨.sampleRate, .error⟩ 1]

theorem counted_once_busy :
    (run (opened true ⟨⟨1000⟩⟩) busyActs).reports.map LossReport.entries =
      [[(⟨.backpressure, .logItem⟩, 2)], [(⟨.networkError, .logItem⟩, 5), (⟨.backpressure, .logItem⟩, 2)]] ∧
    (run (opened true ⟨⟨1000⟩⟩) busyActs).ledger.pendingList = [(⟨.sampleRate, .error⟩, 1)] ∧
    (∀ l, (busyActs.map (·.amount l)).sum =
      ((run (opened true ⟨⟨1000⟩⟩) busyActs).reports.map (·.quantity l)).sum +
        (run (opened true ⟨⟨1000⟩⟩) busyActs).ledger.pending l) ∧
    (run (opened false ⟨⟨1000⟩⟩) busyActs).reports = [] := by
  have hs : run (opened true ⟨⟨1000⟩⟩) busyActs = run (opened true ⟨⟨1000⟩⟩) busyActs := rfl
  have hi : run (opened false ⟨⟨1000⟩⟩) busyActs = run (opened false ⟨⟨1000⟩⟩) busyActs := rfl
  obtain ⟨hbalance, -, -, -, -, -, hnone, -⟩ := counted_once hs hi
  exact ⟨by decide +kernel, by decide +kernel, hbalance, hnone⟩

end LedgerSession

end Courier

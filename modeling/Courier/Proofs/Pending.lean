import Courier.Proofs.Flush
import Courier.Proofs.Merging
import Courier.Proofs.Reports

/-!
# What is pending

Whether anything is pending is asked in two ways: a report looks at each count, and who flushes looks at the sum of all
of them, which is a word. The two agree as long as a word holds the sum. Beyond that checked sums stop who flushes.
Without checks the sum may be zero, and who flushes finds nothing where an envelope would have taken a report with it.
-/

namespace Courier

open Tally (fullWeight sum_toNat)

namespace Tally

theorem sum_single (l : Loss) (n : Nat) {ls : List Loss} (hn : ls.Nodup) (hm : l ∈ ls) :
    (ls.map fun k => if l = k then n else 0).sum = n := by
  induction ls with
  | nil => cases hm
  | cons k ls ih =>
    obtain ⟨hk, hn⟩ := List.nodup_cons.mp hn
    rw [List.map_cons, List.sum_cons]
    by_cases hl : l = k
    · subst hl
      have hz : (ls.map fun k => if l = k then n else 0) = ls.map fun _ => 0 :=
        List.map_congr_left fun k h => if_neg fun he : l = k => hk (he ▸ h)
      rw [if_pos rfl, hz]
      simp
    · rw [if_neg hl, ih hn ((List.mem_cons.mp hm).resolve_left hl), Nat.zero_add]

/-- All counts together, loss by loss or as they stand in the list. -/
theorem sum_fullWeight (counts : List (Loss × UInt64)) :
    (Loss.all.map fun l => fullWeight l counts).sum = (counts.map fun c => c.2.toNat).sum := by
  induction counts with
  | nil => decide +kernel
  | cons c counts ih =>
    simp only [fullWeight_cons, List.map_cons, List.sum_cons]
    rw [List.sum_map_add, sum_single c.1 c.2.toNat (by decide +kernel) c.1.mem_all, ih]

theorem fullWeight_toNat (t : Tally Loss) (l : Loss) : fullWeight l t.counts = (t.get l).toNat := by
  rw [get_eq_weight, weight_toNat, Nat.mod_eq_of_lt]
  obtain ⟨counts, hn⟩ := t
  exact fullWeight_lt hn l

end Tally

namespace Ledger

variable {led : Ledger}

/-- All that is pending, however much that is. -/
def pendingFull (led : Ledger) : Nat := (Loss.all.map fun l => (led.pending l).toNat).sum

theorem pendingFull_eq (led : Ledger) : led.pendingFull = ((led.counts.counts.map Prod.snd).map UInt64.toNat).sum := by
  rw [List.map_map, pendingFull]
  simp only [pending, ← Tally.fullWeight_toNat]
  exact Tally.sum_fullWeight led.counts.counts

theorem pendingTotal_eq (led : Ledger) :
    led.pendingTotal =
      if led.sums = .checked ∧ 2 ^ 64 ≤ led.pendingFull then .error {} else .ok (UInt64.ofNat led.pendingFull) := by
  have hsum : (led.counts.counts.map Prod.snd).sum = UInt64.ofNat led.pendingFull := by
    rw [← UInt64.toNat_inj, sum_toNat, ← pendingFull_eq, UInt64.toNat_ofNat']
  rw [pendingTotal, Tally.total, Sums.total_eq, ← pendingFull_eq, hsum]

theorem pendingFull_pos : 0 < led.pendingFull ↔ ∃ l, led.pending l ≠ 0 := by
  unfold pendingFull
  constructor
  · intro h
    by_contra hn
    simp only [not_exists, not_not] at hn
    simp [hn] at h
  · rintro ⟨l, hl⟩
    apply Nat.lt_of_lt_of_le _ (List.le_sum_of_mem (List.mem_map_of_mem l.mem_all))
    exact UInt64.lt_iff_toNat_lt.mp (UInt64.pos_iff_ne_zero.mpr hl)

theorem pendingList_eq_nil : led.pendingList = [] ↔ ∀ l, led.pending l = 0 := by
  unfold pendingList
  simp [List.filter_eq_nil_iff, Loss.mem_all]

theorem report_isSome (he : led.enabled = true) (now : Timestamp) :
    (led.report now).1.isSome = true ↔ 0 < led.pendingFull := by
  have hentries := led.report_entries he now
  have hnil := led.pendingList_eq_nil
  rw [pendingFull_pos, ← Option.isSome_map (f := LossReport.entries), hentries]
  by_cases hz : led.pendingList = []
  · simp [hz, hnil.mp hz]
  · rw [if_neg hz]
    simpa [hnil] using hz

/-- What is pending is not told by the sum. -/
def Hidden (led : Ledger) : Prop :=
  match led.sums with
  | .checked => 2 ^ 64 ≤ led.pendingFull
  | .wrapping => 2 ^ 64 ∣ led.pendingFull

theorem pendingTotal_pos :
    (∃ n, led.pendingTotal = .ok n ∧ 0 < n) ↔ 0 < led.pendingFull ∧ ¬ led.Hidden := by
  have hpos : 0 < UInt64.ofNat led.pendingFull ↔ ¬ 2 ^ 64 ∣ led.pendingFull := by
    rw [UInt64.lt_iff_toNat_lt, UInt64.toNat_ofNat', Nat.dvd_iff_mod_eq_zero]
    exact Nat.pos_iff_ne_zero
  rw [pendingTotal_eq, Hidden]
  cases led.sums with
  | checked =>
    by_cases hb : 2 ^ 64 ≤ led.pendingFull
    · rw [if_pos ⟨rfl, hb⟩]
      simp [hb]
    · have hdvd : 2 ^ 64 ∣ led.pendingFull ↔ led.pendingFull = 0 :=
        ⟨fun h => Nat.eq_zero_of_dvd_of_lt h (Nat.lt_of_not_le hb), fun h => h ▸ Nat.dvd_zero _⟩
      rw [if_neg fun h => hb h.2]
      simp only [Except.ok.injEq, exists_eq_left', hpos, hdvd, hb, not_false_eq_true, and_true]
      exact Nat.pos_iff_ne_zero.symm
  | wrapping =>
    rw [if_neg (by simp)]
    simp only [Except.ok.injEq, exists_eq_left', hpos]
    constructor
    · intro h
      refine ⟨Nat.pos_of_ne_zero fun hz => h ?_, h⟩
      rw [hz]
      exact Nat.dvd_zero _
    · exact fun h => h.2

theorem pendingTotal_error :
    led.pendingTotal = .error {} ↔ led.sums = .checked ∧ 2 ^ 64 ≤ led.pendingFull := by
  rw [pendingTotal_eq]
  split
  · next h => simpa using h
  · next h => simpa using h

end Ledger

/-! ## Who flushes, and who sends -/

theorem Depot.load_report {d : Depot} (he : d.ledger.enabled = true) (reportLosses : Bool) (e : Envelope) :
    (d.load reportLosses e).1.report.isSome = true ↔ reportLosses = true ∧ 0 < d.ledger.pendingFull := by
  rw [← Ledger.report_isSome he d.clock.now]
  unfold load
  cases reportLosses with
  | false => simp
  | true =>
    rw [if_pos rfl]
    rcases d.ledger.report d.clock.now with ⟨_ | r, led⟩
    · simp
    · simp

/-- Who has seen all that was queued done with queues a parcel for a report, or leaves the queue as it is. -/
theorem Worker.pollProcessed_due {w : Worker} {d : Depot} {target : Nat} (ht : target ≤ w.processed)
    (now deadline : Nat) :
    ((Wait.pollProcessed now w d target deadline false).1.queue = w.queue ++ [.carrier] ↔ w.reportDue d) ∧
    ((Wait.pollProcessed now w d target deadline false).2 = .broken ↔ w.reportBroken d) := by
  have hne : w.queue ≠ w.queue ++ [.carrier] := by simp
  have hboth (hr : w.reportDue d) : ¬ w.reportBroken d := by
    rintro ⟨-, hb⟩
    obtain ⟨-, ⟨n, hn, -⟩, -⟩ := hr
    rw [hb] at hn
    cases hn
  have hw := w.pollProcessed_watched d now target deadline false
  generalize Wait.pollProcessed now w d target deadline false = x at hw ⊢
  cases hw with
  | quiet _ hr hb => exact ⟨⟨fun h => absurd h hne, fun h => absurd h hr⟩, ⟨nofun, fun h => absurd h hb⟩⟩
  | broken _ hb => exact ⟨⟨fun h => absurd h hne, fun h => absurd hb (hboth h)⟩, ⟨fun _ => hb, fun _ => rfl⟩⟩
  | reports _ hr => exact ⟨⟨fun _ => hr, fun _ => rfl⟩, ⟨nofun, fun h => absurd h (hboth hr)⟩⟩
  | tooLate _ hr _ => exact ⟨⟨fun _ => hr, fun _ => rfl⟩, ⟨nofun, fun h => absurd h (hboth hr)⟩⟩
  | waits h => exact absurd ht (Nat.not_le_of_lt h)
  | late h => exact absurd ht (Nat.not_le_of_lt h)

namespace LedgerSession

theorem act_sums (s : LedgerSession) (a : LedgerAct) : (s.act a).ledger.sums = s.ledger.sums := by
  cases a with
  | record k n => exact Ledger.recordAll_sums s.ledger [(k, n)]
  | recordEnvelope reason e => exact Ledger.recordAll_sums s.ledger _
  | restore r => exact Ledger.recordAll_sums s.ledger _
  | report => exact s.ledger.report_sums s.clock.now
  | clock c => rfl

theorem run_sums (s : LedgerSession) (acts : List LedgerAct) : (s.run acts).ledger.sums = s.ledger.sums := by
  induction acts generalizing s with
  | nil => rfl
  | cons a acts ih => exact (ih (s.act a)).trans (s.act_sums a)

/-- Whatever was recorded, put back and reported: a report is made if and only if anything is pending. The sum says the
same as long as a word holds it. If it does not, checked sums stop who asks; without checks only a multiple of `2^64`
is told as nothing. So who flushes queues a parcel if and only if a report would ride along with an envelope now, with
that one exception, and is stopped only where the sum is. -/
theorem pending_within_words {clock : Clock} {sums : Sums} {acts : List LedgerAct} {s : LedgerSession}
    (hs : run (opened true clock sums) acts = s) :
    s.ledger.sums = sums ∧
    (s.ledger.pendingTotal =
      if sums = .checked ∧ 2 ^ 64 ≤ s.ledger.pendingFull then .error {} else .ok (UInt64.ofNat s.ledger.pendingFull)) ∧
    (∀ now, (s.ledger.report now).1.isSome = true ↔ 0 < s.ledger.pendingFull) ∧
    (∀ now, (∃ n, s.ledger.pendingTotal = .ok n ∧ 0 < n) ↔
      (s.ledger.report now).1.isSome = true ∧ ¬ s.ledger.Hidden) ∧
    ∀ (w : Worker) (d : Depot), w.isClosed = false → d.ledger = s.ledger →
      ∀ now target deadline e, target ≤ w.processed →
        ((Wait.pollProcessed now w d target deadline false).1.queue = w.queue ++ [.carrier] ↔
          (d.load w.reportLosses e).1.report.isSome = true ∧ ¬ s.ledger.Hidden) ∧
        ((Wait.pollProcessed now w d target deadline false).2 = .broken ↔
          w.reportLosses = true ∧ sums = .checked ∧ 2 ^ 64 ≤ s.ledger.pendingFull) := by
  have hsums : s.ledger.sums = sums := by
    rw [← hs]
    exact run_sums _ acts
  have he : s.ledger.enabled = true := by
    rw [← hs]
    exact ((opened_balanced clock sums).run acts).enabled
  refine ⟨hsums, ?_, fun now => Ledger.report_isSome he now, ?_, ?_⟩
  · rw [Ledger.pendingTotal_eq, hsums]
  · intro now
    rw [Ledger.report_isSome he now]
    exact Ledger.pendingTotal_pos
  · intro w d hc hd now target deadline e ht
    have hdue : w.reportDue d ↔ w.reportLosses = true ∧ ∃ n, s.ledger.pendingTotal = .ok n ∧ 0 < n := by
      simp only [Worker.reportDue, hc, hd, UInt64.pos_iff_ne_zero, and_true]
    have hbroken : w.reportBroken d ↔ w.reportLosses = true ∧ sums = .checked ∧ 2 ^ 64 ≤ s.ledger.pendingFull := by
      rw [Worker.reportBroken, hd, Ledger.pendingTotal_error, hsums]
    obtain ⟨hqueue, hend⟩ := Worker.pollProcessed_due ht now deadline (w := w) (d := d)
    rw [hqueue, hend, hdue, hbroken, Depot.load_report (hd ▸ he), Ledger.pendingTotal_pos, hd, and_assoc]
    exact ⟨Iff.rfl, Iff.rfl⟩

/-- One error less than a word can say, and so many spans, after an earlier report. -/
def manyActs (spans : UInt64) : List LedgerAct :=
  [.record ⟨.sendError, .error⟩ 18446744073709551615, .report,
    .restore ⟨⟨500⟩, .add .empty ⟨.sendError, .span⟩ spans⟩, .record ⟨.sendError, .error⟩ 18446744073709551614,
    .record ⟨.sampleRate, .error⟩ 0]

def restingWorker : Worker := .ofSettings .small .once

/-- The state after so many spans. -/
def crammed (sums : Sums) (spans : UInt64) : LedgerSession := run (opened true ⟨⟨1000⟩⟩ sums) (manyActs spans)

theorem pending_within_words_many :
    (crammed .checked 1).ledger.pendingFull = 18446744073709551615 ∧
    ((crammed .checked 1).ledger.report ⟨1000⟩).1.isSome = true ∧
    (Wait.pollProcessed 0 restingWorker { ledger := (crammed .checked 1).ledger } 0 10 false).1.queue = [.carrier] ∧
    (Wait.pollProcessed 0 restingWorker { ledger := (crammed .checked 2).ledger } 0 10 false).2 = .broken := by
  have hfull : (crammed .checked 1).ledger.pendingFull = 18446744073709551615 := by decide +kernel
  have hover : (crammed .checked 2).ledger.pendingFull = 18446744073709551616 := by decide +kernel
  have hload : (Depot.load { ledger := (crammed .checked 1).ledger } true {}).1.report.isSome = true := by
    decide +kernel
  have hsums : (crammed .checked 1).ledger.sums = .checked := rfl
  obtain ⟨-, -, hmade, -, hflush⟩ := pending_within_words (s := crammed .checked 1) rfl
  obtain ⟨-, -, -, -, hstop⟩ := pending_within_words (s := crammed .checked 2) rfl
  refine ⟨hfull, (hmade ⟨1000⟩).mpr (by rw [hfull]; decide), ?_, ?_⟩
  · apply (hflush restingWorker { ledger := (crammed .checked 1).ledger } rfl rfl 0 0 10 {} (Nat.le_refl 0)).1.mpr
    refine ⟨hload, ?_⟩
    rw [Ledger.Hidden, hsums, hfull]
    decide
  · apply (hstop restingWorker { ledger := (crammed .checked 2).ledger } rfl rfl 0 0 10 {} (Nat.le_refl 0)).2.mpr
    exact ⟨rfl, rfl, hover.ge⟩

/-- One span more, and the sum is zero where it is not checked: who flushes is done at once, though a report is due. -/
theorem pending_told_as_nothing :
    (crammed .wrapping 2).ledger.pendingTotal = .ok 0 ∧
    (crammed .wrapping 2).report.1.map LossReport.entries =
      some [(⟨.sendError, .error⟩, 18446744073709551614), (⟨.sendError, .span⟩, 2)] ∧
    (Wait.pollProcessed 0 restingWorker { ledger := (crammed .wrapping 2).ledger } 0 10 false).2 = .done (some true) ∧
    (Wait.pollProcessed 0 restingWorker { ledger := (crammed .wrapping 2).ledger } 0 10 false).1.queue.length = 0 ∧
    (Depot.load { ledger := (crammed .wrapping 2).ledger } true {}).1.report.isSome = true := by
  decide +kernel

end LedgerSession

end Courier

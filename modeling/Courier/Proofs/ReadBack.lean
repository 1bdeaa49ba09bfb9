import Courier.Envelope.Basic
import Courier.Proofs.Counts
import Courier.Proofs.Reports
import Courier.Proofs.Seconds

/-!
# Reports read back

A report that is attached to an envelope can be read from the item: it has the same counts. Its time is the same to
the millisecond, or one millisecond early.
-/

namespace Courier

/-! ## Names -/

theorem LossReason.ofName?_name (r : LossReason) : ofName? r.name = some r := by cases r <;> decide

theorem Category.ofName?_name (c : Category) : ofName? c.name = some c := by cases c <;> decide

/-! ## Reports -/

namespace LossReport

variable {r : LossReport}

theorem lookup_filterMap (f : Loss → Option UInt64) (l : Loss) (losses : List Loss) :
    (losses.filterMap fun k => (f k).map fun n => (k, n)).lookup l = if l ∈ losses then f l else none := by
  induction losses with
  | nil => rfl
  | cons k losses ih =>
    rw [List.filterMap_cons]
    cases hf : f k with
    | none =>
      rw [Option.map_none, ih]
      by_cases hk : l = k
      · subst hk
        simp [hf]
      · simp [hk]
    | some n =>
      rw [Option.map_some]
      by_cases hk : l = k
      · subst hk
        simp [hf]
      · rw [Tally.lookup_cons_ne (Ne.symm hk), ih]
        simp [hk]

theorem lookup_entries (r : LossReport) (l : Loss) : r.entries.lookup l = r.losses.counts.lookup l :=
  (lookup_filterMap (fun k => r.losses.counts.lookup k) l Loss.all).trans (if_pos l.mem_all)

theorem nodup_entries (r : LossReport) : (r.entries.map Prod.fst).Nodup := by
  have hsub : (r.entries.map Prod.fst).Sublist Loss.all := by
    unfold entries
    generalize Loss.all = losses
    induction losses with
    | nil => exact .slnil
    | cons l losses ih =>
      rw [List.filterMap_cons]
      cases r.losses.counts.lookup l with
      | none => exact ih.cons l
      | some n => exact ih.cons_cons l
  exact hsub.nodup (by decide +kernel)

def entryJson (c : Loss × UInt64) : Json :=
  .obj [("category", .str c.1.category.name), ("quantity", .ofNat c.2), ("reason", .str c.1.reason.name)]

theorem toJson_eq (r : LossReport) :
    r.toJson = .obj [("discarded_events", .arr (r.entries.map entryJson)), ("timestamp", .ofFloat r.timestamp.seconds)] :=
  rfl

theorem entryOfDocument?_ofJson (c : Loss × UInt64) : entryOfDocument? (.ofJson (entryJson c)) = some c := by
  obtain ⟨⟨reason, category⟩, n⟩ := c
  have hrecord : Record.ofDocument? ["reason", "category", "quantity"]
      (.ofJson (entryJson (⟨reason, category⟩, n))) = some [("category", .str (some category.name)),
        ("quantity", .num (some (.nat n))), ("reason", .str (some reason.name))] := by
    rfl
  have hreason : Record.required [("category", Document.str (some category.name)),
      ("quantity", .num (some (.nat n))), ("reason", .str (some reason.name))] "reason"
      (fun d => d.name?.bind LossReason.ofName?) = some reason := reason.ofName?_name
  have hcategory : Record.required [("category", Document.str (some category.name)),
      ("quantity", .num (some (.nat n))), ("reason", .str (some reason.name))] "category"
      (fun d => d.name?.bind Category.ofName?) = some category := category.ofName?_name
  unfold entryOfDocument?
  rw [hrecord]
  simp only [Option.bind_eq_bind, Option.bind_some, hreason, hcategory]
  rfl

theorem items?_ofItems (counts : List (Loss × UInt64)) :
    Document.items? entryOfDocument? (.arr (Document.ofItems (counts.map entryJson))) = some counts := by
  change (Document.ofItems (counts.map entryJson)).mapM entryOfDocument? = some counts
  induction counts with
  | nil => rfl
  | cons c counts ih =>
    rw [List.map_cons, Document.ofItems, List.mapM_cons, entryOfDocument?_ofJson, ih]
    rfl

theorem merged?_entries (hne : r.entries ≠ []) (hz : ∀ c ∈ r.entries, c.2 ≠ 0) (now : Timestamp) :
    ∃ losses, merged? now r.entries = some ⟨now, losses⟩ ∧ losses.counts = r.entries := by
  have hcounts := Tally.counts_addAll (t := .empty) (by simpa [Tally.empty] using r.nodup_entries) hz
  refine ⟨_, ?_, hcounts⟩
  unfold merged? ofLosses?
  rw [hcounts]
  exact if_neg (by simpa [Tally.empty] using hne)

theorem listed?_ofJson (hf : r.timestamp.seconds.isFinite = true) :
    listed? (.ofJson r.toJson) = some (instant r.timestamp.seconds, r.entries) := by
  rw [toJson_eq, Json.ofFloat, if_pos hf]
  have hrecord : Record.ofDocument? ["timestamp", "discarded_events"]
      (.ofJson (.obj [("discarded_events", .arr (r.entries.map entryJson)),
        ("timestamp", .num (.float r.timestamp.seconds))])) =
      some [("discarded_events", .arr (Document.ofItems (r.entries.map entryJson))),
        ("timestamp", .num (some (.float r.timestamp.seconds)))] := by
    rfl
  have hseconds : Record.required [("discarded_events", Document.arr (Document.ofItems (r.entries.map entryJson))),
      ("timestamp", .num (some (.float r.timestamp.seconds)))] "timestamp" Document.float? =
      some r.timestamp.seconds := rfl
  have hentries : Record.optional [("discarded_events", Document.arr (Document.ofItems (r.entries.map entryJson))),
      ("timestamp", .num (some (.float r.timestamp.seconds)))] "discarded_events"
      (Document.items? entryOfDocument?) [] = some r.entries := items?_ofItems r.entries
  unfold listed?
  rw [hrecord]
  simp only [Option.bind_eq_bind, Option.bind_some, hseconds, hentries]
  rfl

theorem ofDocument?_toJson (hne : r.entries ≠ []) (hz : ∀ c ∈ r.entries, c.2 ≠ 0)
    (ht : r.timestamp.millis.toNat < 2 ^ 51) :
    ∃ losses, (∀ s, ofDocument? s (.ofJson r.toJson) = .ok (some ⟨r.timestamp.restored, losses⟩)) ∧
      losses.counts = r.entries := by
  obtain ⟨losses, hm, hcounts⟩ := r.merged?_entries hne hz r.timestamp.restored
  refine ⟨losses, fun s => ?_, hcounts⟩
  unfold ofDocument?
  rw [listed?_ofJson (Timestamp.seconds_isFinite ht), Timestamp.instant_seconds ht]
  exact (ofCounts?_distinct r.nodup_entries s _).trans (congrArg Except.ok hm)

end LossReport

/-! ## Envelopes -/

def Item.report? (i : Item) (s : Sums) : Except Overflow (Option LossReport) :=
  match i.payload.json? with
  | some v => LossReport.ofDocument? s (.ofJson v)
  | none => .ok none

namespace Envelope

/-- A report can be read from the envelope that it is attached to, with all its counts. The time that is written is the
double next to its seconds. What is read back is the same time, or the millisecond before where the double is rounded
down too far for its thousandfold to come back. -/
theorem attach_read_back (e : Envelope) {r : LossReport} (hne : r.entries ≠ []) (hz : ∀ c ∈ r.entries, c.2 ≠ 0)
    (ht : r.timestamp.millis.toNat < 2 ^ 51) :
    ∃ item back, (e.attach r).items = e.items ++ [item] ∧ (∀ s, item.report? s = .ok (some back)) ∧
      back.entries = r.entries ∧ (∀ l, back.quantity l = r.quantity l) ∧ back.timestamp = r.timestamp.restored ∧
      (back.timestamp = r.timestamp ↔ r.timestamp.slips = false) ∧
      (0 < r.timestamp.millis.toNat → Rounding.NextTo r.timestamp.seconds (r.timestamp.millis.toNat / 1000)) := by
  obtain ⟨losses, hread, hcounts⟩ := r.ofDocument?_toJson hne hz ht
  have hlookup (l : Loss) : losses.counts.lookup l = r.losses.counts.lookup l := by
    rw [hcounts, r.lookup_entries]
  refine ⟨reportItem r, ⟨r.timestamp.restored, losses⟩, rfl, hread, ?_, ?_, rfl, r.timestamp.restored_eq_iff, ?_⟩
  · unfold LossReport.entries
    simp only [hlookup]
  · intro l
    unfold LossReport.quantity Tally.get
    rw [hlookup]
  · intro h0
    exact Timestamp.seconds_nextTo h0 ht

/-- Two errors that were lost, told a second and a millisecond after the epoch. -/
def secondReport : LossReport := ⟨⟨1001⟩, .add .empty ⟨.sendError, .error⟩ 2⟩

theorem attach_read_back_second :
    ∃ item back, (({} : Envelope).attach secondReport).items = [] ++ [item] ∧ item.report? .checked = .ok (some back) ∧
      back.entries = [(⟨.sendError, .error⟩, 2)] ∧ back.timestamp = ⟨1000⟩ := by
  obtain ⟨item, back, hitems, hread, hentries, -, htime, -⟩ :=
    attach_read_back {} (r := secondReport) (by decide +kernel) (by decide +kernel) (by decide)
  exact ⟨item, back, hitems, hread .checked, hentries.trans (by decide +kernel), htime.trans (by decide +kernel)⟩

/-- A time does not always come back. -/
theorem attach_read_early :
    secondReport.timestamp = ⟨1001⟩ ∧ secondReport.entries = [(⟨.sendError, .error⟩, 2)] ∧
      ((({} : Envelope).attach secondReport).items.getLast?.map fun i => (i.report? .checked).map fun r =>
        r.map (·.timestamp)) = some (.ok (some ⟨1000⟩)) := by
  decide +kernel

end Envelope

end Courier

import Courier.Proofs.ReadBack
import Courier.Proofs.Sends

/-!
# What envelopes tell

The losses that an envelope tells of are the counts in its client reports, read from the items as they stand there. A
report that rides along adds its own counts to them.
-/

namespace Courier

open Tally (weight)

/-- The counts that a written report lists, whenever it was made. -/
def LossReport.counts? (d : Document) : Option (List (Loss × UInt64)) := do
  let r ← Record.ofDocument? ["timestamp", "discarded_events"] d
  r.optional "discarded_events" (Document.items? entryOfDocument?) []

theorem LossReport.counts?_of_listed? {d : Document} {t : Timestamp} {counts : List (Loss × UInt64)}
    (h : listed? d = some (t, counts)) : counts? d = some counts := by
  obtain ⟨r, hr, h⟩ := Option.bind_eq_some_iff.mp h
  obtain ⟨seconds, -, h⟩ := Option.bind_eq_some_iff.mp h
  obtain ⟨found, hf, h⟩ := Option.bind_eq_some_iff.mp h
  cases h
  exact Option.bind_eq_some_iff.mpr ⟨r, hr, hf⟩

theorem LossReport.counts?_toJson (r : LossReport) : counts? (.ofJson r.toJson) = some r.entries := by
  rw [toJson_eq]
  exact items?_ofItems r.entries

/-- The counts in a client report. -/
def Item.told (i : Item) : List (Loss × UInt64) :=
  if i.kind = .clientReport then (i.payload.json?.bind fun v => LossReport.counts? (.ofJson v)).getD [] else []

theorem Item.told_report (r : LossReport) : (Envelope.reportItem r).told = r.entries := by
  have hk : (Envelope.reportItem r).kind = .clientReport := rfl
  rw [told, if_pos hk, show (Envelope.reportItem r).payload.json? = some r.toJson from rfl, Option.bind_some,
    LossReport.counts?_toJson]
  rfl

/-- Whoever reads the report finds these counts. -/
theorem Item.report?_quantity {i : Item} {s : Sums} {r : LossReport} (hk : i.kind = .clientReport)
    (h : i.report? s = .ok (some r)) (l : Loss) : r.quantity l = weight l i.told := by
  unfold report? at h
  cases hv : i.payload.json? with
  | none => simp [hv] at h
  | some v =>
    simp only [hv, LossReport.ofDocument?] at h
    cases hd : LossReport.listed? (.ofJson v) with
    | none => simp [hd] at h
    | some x =>
      simp only [hd] at h
      have hq := LossReport.quantity_merged? x.1 x.2 l
      rw [LossReport.merged?_of_ofCounts? h] at hq
      rw [told, if_pos hk, hv, Option.bind_some, LossReport.counts?_of_listed? hd]
      exact hq

namespace Envelope

/-- The counts in all client reports of an envelope. -/
def told (e : Envelope) : List (Loss × UInt64) := e.items.flatMap Item.told

theorem withReport_told (e : Envelope) (report? : Option LossReport) :
    (e.withReport report?).told = e.told ++ (report?.map LossReport.entries).getD [] := by
  cases report? with
  | none => simp [withReport]
  | some r => simp [withReport, attach, push, told, Item.told_report]

/-- All that the client reports of an envelope add up to. -/
def reported (e : Envelope) : UInt64 := (e.told.map Prod.snd).sum

end Envelope

/-- The counts in what was put behind the items of an envelope before it was sent. -/
def Outbound.attached (out : Outbound) (e : Envelope) : List (Loss × UInt64) :=
  (out.envelope.items.drop e.items.length).flatMap Item.told

theorem Outbound.Of.attached {out : Outbound} {e : Envelope} (h : out.Of e) :
    out.attached e = (out.report.map LossReport.entries).getD [] := by
  rw [Outbound.attached, show out.envelope = e.withReport out.report from h]
  cases out.report with
  | none => simp [Envelope.withReport]
  | some r => simp [Envelope.withReport, Envelope.attach, Envelope.push, Item.told_report]

theorem Outbound.Of.told {out : Outbound} {e : Envelope} (h : out.Of e) :
    out.envelope.told = e.told ++ out.attached e := by
  rw [h.attached, ← e.withReport_told]
  exact congrArg Envelope.told h

/-- What is put there is what left the ledger. -/
theorem Outbound.Of.weight_attached {out : Outbound} {e : Envelope} (h : out.Of e) (l : Loss) :
    weight l (out.attached e) = out.carries l := by
  rw [h.attached, Outbound.carries]
  cases out.report with
  | none => rfl
  | some r => exact r.weight_entries l

theorem Outbound.Of.reported {out : Outbound} {e : Envelope} (h : out.Of e) :
    out.envelope.reported = e.reported + (Loss.all.map out.carries).sum := by
  have hsum : (Loss.all.map out.carries).sum = ((out.attached e).map Prod.snd).sum := by
    rw [← Tally.sum_weight]
    exact congrArg List.sum (List.map_congr_left fun l _ => (h.weight_attached l).symm)
  rw [hsum, Envelope.reported, h.told, List.map_append, List.sum_append]
  rfl

def reportedOf (es : List Envelope) : UInt64 := (es.map Envelope.reported).sum

@[simp] theorem reportedOf_nil : reportedOf [] = 0 := rfl

@[simp] theorem reportedOf_cons (e : Envelope) (es : List Envelope) :
    reportedOf (e :: es) = e.reported + reportedOf es := by
  simp [reportedOf]

@[simp] theorem reportedOf_append (es fs : List Envelope) :
    reportedOf (es ++ fs) = reportedOf es + reportedOf fs := by
  simp [reportedOf]

namespace Desk

variable {k : Desk}

/-- What the reports told that the worker put behind these envelopes. -/
def attachedLoss (xs : List (Parcel × Outbound)) (l : Loss) : UInt64 :=
  (xs.map fun x => weight l (x.2.attached x.1.envelope)).sum

theorem Sends.attachedLoss_arrived (hk : k.Sends) (l : Loss) : attachedLoss k.arrived l = arrivedLoss k.answers l := by
  rw [attachedLoss, arrivedLoss, Desk.arrived, List.map_map]
  refine congrArg List.sum (List.map_congr_left fun a ha => ?_)
  exact (hk.arrived (a.1, a.2.1) (List.mem_map.mpr ⟨a, ha, rfl⟩)).weight_attached l

end Desk

namespace Office

/-- What was lost at the desks. -/
def lost (s : Office) (l : Loss) : UInt64 := (s.desks.map (·.lost l)).sum

/-- What the reports told that arrived with envelopes of the desks. -/
def attachedLoss (s : Office) (l : Loss) : UInt64 := (s.desks.map fun k => Desk.attachedLoss k.arrived l).sum

theorem owed_idle {s : Office} (hk : ∀ k ∈ s.desks, k.Sends) (hs : ∀ k ∈ s.desks, k.worker.sending? = none)
    (l : Loss) : s.owed l + s.lost l = s.attachedLoss l := by
  rw [Office.owed, Office.lost, ← Tally.sum_map_add, attachedLoss]
  refine congrArg List.sum (List.map_congr_left fun k hm => ?_)
  rw [Desk.owed_idle (hs k hm), (hk k hm).attachedLoss_arrived]

end Office

end Courier

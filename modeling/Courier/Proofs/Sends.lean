import Courier.Proofs.Balance
import Courier.Proofs.Spill

/-!
# What arrives

The transport gets an envelope as it was put into the queue, with a report behind its items if there were losses.
What arrives is done with, so envelopes arrive in the order of the queue.
-/

namespace Courier

def Envelope.withReport (e : Envelope) (report? : Option LossReport) : Envelope :=
  match report? with
  | some r => e.attach r
  | none => e

theorem Envelope.withReport_header (e : Envelope) (report? : Option LossReport) :
    (e.withReport report?).header = e.header := by
  cases report? <;> rfl

/-- What is handed over is this envelope and the report that rides along. -/
def Outbound.Of (out : Outbound) (e : Envelope) : Prop := out.envelope = e.withReport out.report

theorem Depot.load_of (d : Depot) (b : Bool) (e : Envelope) : (d.load b e).1.Of e := by
  unfold load
  split
  · rcases d.ledger.report d.clock.now with ⟨_ | r, led⟩ <;> rfl
  · rfl

namespace Worker

variable {w : Worker} {d : Depot}

theorem sending?_of_hand {p : Parcel} {n : UInt32} {out : Outbound} (hp : w.position = .sending p n out) :
    w.sending? = some (p, out) := by
  simp [sending?, hp]

theorem Move.sending? {x : Stride} (hm : w.Move d x) {p : Parcel} {out : Outbound}
    (h : x.worker.sending? = some (p, out)) : out.Of p.envelope := by
  cases hm with
  | close => cases h
  | take => cases h
  | begin => rw [begin_sending?] at h; cases h
  | hand hp hl =>
    cases h
    rw [show out = (d.load w.reportLosses p.envelope).1 by rw [hl]]
    exact d.load_of w.reportLosses p.envelope
  | blank => rw [conclude_sending?] at h; cases h
  | pause => cases h
  | fail => rw [conclude_sending?] at h; cases h
  | yield => rw [conclude_sending?] at h; cases h
  | @abandon p rest hp => rw [abandon_sending? (w := { w with queue := rest }) hp] at h; cases h
  | stop => rw [stop_sending?] at h; cases h

theorem forsake_fate (w : Worker) (d : Depot) (p : Parcel) : (w.forsake d p).1 ≠ .delivered := by
  unfold forsake
  split
  · nofun
  · split
    · nofun
    · simp only
      cases (w.spill d p.envelope).1 <;> nofun

/-- Without an answer, only empty envelopes are done with as if they were delivered. -/
theorem Move.settled_delivered {x : Stride} (hm : w.Move d x) :
    ∀ y ∈ x.settled.toList, y.2 = .delivered → y.1.filled = false := by
  cases hm with
  | close => simp
  | take => simp
  | begin => simp [begin_settled]
  | hand => simp
  | @blank p n out d' hp hl hn =>
    have he : p.envelope.isEmpty = true := by
      rw [show out = (d.load w.reportLosses p.envelope).1 by rw [hl]] at hn
      exact (Depot.load_blank hn).1
    simp [conclude, Parcel.filled, he]
  | pause => simp
  | fail hp hv =>
    simp only [conclude, Option.toList_some, List.mem_singleton, forall_eq]
    rcases Handling.verdict?_cases hv with rfl | ⟨g, -, rfl⟩ <;> simp
  | yield hy =>
    simp only [conclude, Option.toList_some, List.mem_singleton, forall_eq]
    rcases hy.fate with ⟨e, rfl⟩ | ⟨g, -, rfl⟩ <;> simp
  | @abandon p rest =>
    simp only [abandon_settled, Option.toList_some, List.mem_singleton, forall_eq]
    exact fun h => absurd h (forsake_fate _ d p)
  | stop => simp [stop_settled]

theorem Polled.sending? {w' : Worker} (hw : w.Polled w') : w'.sending? = w.sending? := by
  cases hw <;> rfl

theorem Polled.handling {w' : Worker} (hw : w.Polled w') : w'.handling = w.handling := by
  cases hw <;> rfl

end Worker

namespace Desk

def arrived (k : Desk) : List (Parcel × Outbound) :=
  (k.answers.filter fun a => a.2.2.isOk).map fun a => (a.1, a.2.1)

structure Sends (k : Desk) : Prop where
  order : k.InOrder
  sending : ∀ p out, k.worker.sending? = some (p, out) → out.Of p.envelope
  arrived : ∀ a ∈ k.arrived, a.2.Of a.1.envelope
  /-- What has arrived is done with. -/
  settled : (k.arrived.map fun a => (a.1, Fate.delivered)).Sublist k.settled
  /-- What had items and is done with as delivered has arrived. -/
  delivered : (k.settled.filter fun x => x.2 = .delivered ∧ x.1.filled).map Prod.fst =
    (k.answers.filter fun a => a.2.2.isOk ∧ a.1.filled).map Prod.fst

variable {k k' : Desk} {d d' : Depot}

theorem arrived_answers (k : Desk) (x : Parcel × Outbound × Except SendError Unit) :
    (((k.answers ++ [x]).filter fun a => a.2.2.isOk).map fun a => (a.1, a.2.1)) =
      k.arrived ++ if x.2.2.isOk then [(x.1, x.2.1)] else [] := by
  rw [List.filter_append, List.map_append, arrived]
  congr 1
  by_cases h : x.2.2.isOk = true <;> simp [h]

theorem Change.arrived (hc : k.Change d k' d') :
    (k'.arrived = k.arrived ∧ k.settled.Sublist k'.settled) ∨
      ∃ p out, k.worker.sending? = some (p, out) ∧ k'.arrived = k.arrived ++ [(p, out)] ∧
        k'.settled = k.settled ++ [(p, .delivered)] := by
  cases hc with
  | step hm => exact .inl ⟨rfl, List.sublist_append_left ..⟩
  | @error p n out hp e =>
    refine .inl ⟨(k.arrived_answers (p, out, .error e)).trans ?_, List.sublist_append_left ..⟩
    simp [Except.isOk, Except.toBool]
  | @arrive p n out hp =>
    exact .inr ⟨p, out, Worker.sending?_of_hand hp, k.arrived_answers (p, out, .ok ()), rfl⟩
  | resume => exact .inl ⟨rfl, .refl _⟩
  | accept => exact .inl ⟨rfl, .refl _⟩
  | refuse => exact .inl ⟨rfl, .refl _⟩
  | polled => exact .inl ⟨rfl, .refl _⟩

theorem Change.sending? (hc : k.Change d k' d') (hk : ∀ p out, k.worker.sending? = some (p, out) → out.Of p.envelope)
    {p : Parcel} {out : Outbound} (h : k'.worker.sending? = some (p, out)) : out.Of p.envelope := by
  cases hc with
  | step hm => exact hm.sending? h
  | error hp e => exact (Worker.answered_move (d := d) hp e).sending? h
  | arrive => cases h
  | resume => cases h
  | accept => exact hk p out h
  | refuse => exact hk p out h
  | polled waits hw => exact hk p out (hw.sending? ▸ h)

theorem moved_delivered {x : Stride} (hm : k.worker.Move d x) :
    ((k.moved x).settled.filter fun x => x.2 = .delivered ∧ x.1.filled) =
      k.settled.filter fun x => x.2 = .delivered ∧ x.1.filled := by
  have hn : (x.settled.toList.filter fun x => x.2 = .delivered ∧ x.1.filled) = [] := by
    refine List.filter_eq_nil_iff.mpr fun y hy => ?_
    have h := hm.settled_delivered y hy
    grind
  rw [moved, List.filter_append, hn, List.append_nil]

theorem Change.delivered (hc : k.Change d k' d') (hk : k.Sends) :
    (k'.settled.filter fun x => x.2 = .delivered ∧ x.1.filled).map Prod.fst =
      (k'.answers.filter fun a => a.2.2.isOk ∧ a.1.filled).map Prod.fst := by
  have h := hk.delivered
  cases hc with
  | step hm =>
    rw [moved_delivered hm]
    exact h
  | error hp e =>
    simp only [moved_delivered (Worker.answered_move (d := d) hp e), h]
    simp [Except.isOk, Except.toBool]
  | @arrive p n out hp =>
    cases hf : p.filled <;> simpa [Desk.moved, Worker.conclude, Except.isOk, Except.toBool, hf] using h
  | resume => exact h
  | accept => exact h
  | refuse => exact h
  | polled => exact h

theorem Change.sends (hc : k.Change d k' d') (hk : k.Sends) : k'.Sends := by
  refine ⟨hc.inOrder hk.order, fun p out h => hc.sending? hk.sending h, ?_, ?_, hc.delivered hk⟩
  · rcases hc.arrived with ⟨ha, -⟩ | ⟨p, out, hp, ha, -⟩
    · rw [ha]
      exact hk.arrived
    · rw [ha]
      exact List.forall_mem_append.mpr ⟨hk.arrived, by simpa using hk.sending p out hp⟩
  · rcases hc.arrived with ⟨ha, hs⟩ | ⟨p, out, hp, ha, hs⟩
    · rw [ha]
      exact hk.settled.trans hs
    · rw [ha, hs, List.map_append]
      exact hk.settled.append_right [(p, Fate.delivered)]

theorem opened_sends {w : Worker} (hw : w.Fresh) : (opened w).Sends :=
  ⟨hw.inOrder, fun p out h => by simp [opened, Worker.sending?, hw.position] at h, by simp [Desk.arrived, opened],
    by simp [Desk.arrived, opened], rfl⟩

/-- Envelopes arrive in the order in which they were found and then in which they were accepted. -/
theorem Sends.arrived_sublist (hk : k.Sends) :
    ((k.arrived.filter fun a => !a.1.envelope.isEmpty).map (·.1.envelope)).Sublist
      (k.backlog.map Prod.fst ++ k.accepted) := by
  have h := ((hk.settled.map Prod.fst).trans (List.sublist_append_left _ k.worker.parcels)).filter
    fun p => !p.envelope.isEmpty
  rw [List.map_map] at h
  rw [← hk.order.filled, Desk.parcels]
  have he : (k.arrived.filter fun a => !a.1.envelope.isEmpty).map (·.1.envelope) =
      ((k.arrived.map (Prod.fst ∘ fun a => (a.1, Fate.delivered))).filter fun p => !p.envelope.isEmpty).map
        (·.envelope) := by
    rw [List.filter_map, List.map_map]
    rfl
  rw [he]
  exact h.map _

/-- What a change does to the parcels and to the files. -/
inductive Shift (k : Desk) (d : Depot) (k' : Desk) (d' : Depot) : Prop
  | work {x} (hx : k.worker.Shelving d x) (hw : k'.worker = x.worker) (hd : d'.storage = x.depot.storage)
    (hs : k'.settled = k.settled ++ x.settled.toList) (ha : k'.accepted = k.accepted)
    (hr : k'.arrived = k.arrived ∨
      ∃ p out, x.settled = some (p, .delivered) ∧ k'.arrived = k.arrived ++ [(p, out)])
  | rest (hp : k'.worker.parcels = k.worker.parcels ∨ k'.worker.parcels = k.worker.parcels ++ [⟨{}, none, false⟩])
    (hh : k'.worker.handling = k.worker.handling) (hd : d'.storage = d.storage) (hs : k'.settled = k.settled)
    (ha : k'.accepted = k.accepted) (hr : k'.arrived = k.arrived)
  | accept {e} (hp : k'.worker.parcels = k.worker.parcels ++ [⟨e, none, true⟩]) (he : e.isEmpty = false)
    (hh : k'.worker.handling = k.worker.handling) (hd : d'.storage = d.storage) (hs : k'.settled = k.settled)
    (ha : k'.accepted = k.accepted ++ [e]) (hr : k'.arrived = k.arrived)

theorem Change.shift (hc : k.Change d k' d') : k.Shift d k' d' := by
  cases hc with
  | step hm => exact .work hm.shelving rfl rfl rfl rfl (.inl rfl)
  | @error p n out hp e =>
    have ha := k.arrived_answers (p, out, .error e)
    refine .work (Worker.answered_move hp e).shelving rfl rfl rfl rfl (.inl (ha.trans ?_))
    simp [Except.isOk, Except.toBool]
  | @arrive p n out hp =>
    exact .work (Worker.arrive_shelving hp) rfl rfl rfl rfl
      (.inr ⟨p, out, rfl, k.arrived_answers (p, out, .ok ())⟩)
  | resume hp => exact .rest (.inl (by simp [Worker.parcels, Worker.hand?, hp])) rfl rfl rfl rfl rfl
  | accept hs he hr => exact .accept (Worker.pushReserved_parcels _) he rfl rfl rfl rfl rfl
  | refuse e reason? hd =>
    refine .rest (.inl rfl) rfl ?_ rfl rfl rfl
    cases reason? <;> exact hd.storage
  | polled waits hw => exact .rest hw.parcels hw.handling rfl rfl rfl rfl

end Desk

theorem Office.Reach.sends {allowed : Office → Event → Prop} {first s : Office} (hr : Reach allowed first s)
    (hf : ∀ k ∈ first.desks, k.Sends) : ∀ k ∈ s.desks, k.Sends :=
  hr.desks (fun _ hw => Desk.opened_sends hw) (fun _ _ _ _ hc hk => hc.sends hk) hf

end Courier

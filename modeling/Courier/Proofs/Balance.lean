import Courier.Proofs.Counts
import Courier.Proofs.Queue

/-!
# The balance of a ledger

Whatever the workers of an office do, and whoever counts what they refuse: for each loss, what the ledger still
counts, what reports have brought to the other side, and what is on its way are together what was counted at
first and what was lost since.
-/

namespace Courier

/-- What settled parcels add to the count of a loss. -/
def settledLoss (xs : List (Parcel × Fate)) (l : Loss) : UInt64 :=
  (xs.map fun x => x.1.envelope.lossAs x.2.lossReason? l).sum

@[simp] theorem settledLoss_nil (l : Loss) : settledLoss [] l = 0 := rfl

@[simp] theorem settledLoss_append (xs ys : List (Parcel × Fate)) (l : Loss) :
    settledLoss (xs ++ ys) l = settledLoss xs l + settledLoss ys l := by
  simp [settledLoss]

theorem settledLoss_single (p : Parcel) (f : Fate) (l : Loss) :
    settledLoss [(p, f)] l = p.envelope.lossAs f.lossReason? l := by
  simp [settledLoss]

def arrivedLoss (xs : List (Parcel × Outbound × Except SendError Unit)) (l : Loss) : UInt64 :=
  ((xs.filter (·.2.2.isOk)).map (·.2.1.carries l)).sum

@[simp] theorem arrivedLoss_append (xs ys : List (Parcel × Outbound × Except SendError Unit)) (l : Loss) :
    arrivedLoss (xs ++ ys) l = arrivedLoss xs l + arrivedLoss ys l := by
  simp [arrivedLoss]

theorem arrivedLoss_ok (p : Parcel) (out : Outbound) (l : Loss) : arrivedLoss [(p, out, .ok ())] l = out.carries l := by
  simp [arrivedLoss, Except.isOk, Except.toBool]

theorem arrivedLoss_error (p : Parcel) (out : Outbound) (e : SendError) (l : Loss) :
    arrivedLoss [(p, out, .error e)] l = 0 := by
  simp [arrivedLoss, Except.isOk, Except.toBool]

@[simp] theorem Envelope.lossAs_none (e : Envelope) (l : Loss) : e.lossAs none l = 0 := rfl

/-! ## Moves -/

namespace Worker

def inFlight (w : Worker) (l : Loss) : UInt64 := (w.sending?.map (·.2.carries l)).getD 0

variable {w : Worker} {d : Depot} {p : Parcel} {l : Loss}

theorem inFlight_of_sending {n : UInt32} {out : Outbound} (hp : w.position = .sending p n out) :
    w.inFlight l = out.carries l := by
  simp [inFlight, sending?, hp]

theorem inFlight_of_not_sending (h : w.sending? = none) (l : Loss) : w.inFlight l = 0 := by
  simp [inFlight, h]

theorem settle_pending (he : d.ledger.enabled = true) (p : Parcel) (f : Fate) (l : Loss) :
    (settle d p f).ledger.enabled = true ∧
      (settle d p f).ledger.pending l = d.ledger.pending l + p.envelope.lossAs f.lossReason? l := by
  cases f with
  | delivered => exact ⟨he, by simp [settle, discardFile, Fate.lossReason?]⟩
  | failed e => exact Depot.account_pending he e.lossReason p.envelope l
  | abandoned reason => exact Depot.account_pending he reason p.envelope l
  | kept file => exact ⟨he, by simp [settle, Fate.lossReason?]⟩

theorem spill_ledger (w : Worker) (d : Depot) (e : Envelope) : (w.spill d e).2.2.ledger = d.ledger := by
  unfold spill
  split <;> rfl

theorem begin_ledger (w : Worker) (d : Depot) (p : Parcel) : (w.begin d p).depot.ledger = d.ledger := by
  unfold begin
  split
  · rfl
  · exact spill_ledger w d p.envelope

theorem begin_sending? (w : Worker) (d : Depot) (p : Parcel) : (w.begin d p).worker.sending? = none := by
  obtain ⟨h, file, hb⟩ := begin_worker w d p
  rw [hb]
  rfl

theorem forsake_ledger (w : Worker) (d : Depot) (p : Parcel) : (w.forsake d p).2.2.ledger = d.ledger := by
  unfold forsake
  split
  · rfl
  · split
    · rfl
    · exact spill_ledger w d p.envelope

theorem stop_ledger (w : Worker) (d : Depot) : (w.stop d).depot.ledger = d.ledger := by
  unfold stop
  split <;> rfl

theorem stop_sending? (w : Worker) (d : Depot) : (w.stop d).worker.sending? = none := by
  unfold stop
  split <;> rfl

theorem conclude_sending? (f : Fate) : (w.conclude d p f).worker.sending? = none := rfl

theorem abandon_sending? (hp : w.position = .closing) : (w.abandon d p).worker.sending? = none := by
  obtain ⟨h, hw⟩ := w.forsake_worker d p
  simp [abandon, sending?, hw, hp]

theorem conclude_balance (he : d.ledger.enabled = true) (p : Parcel) (f : Fate) (l : Loss) :
    (w.conclude d p f).depot.ledger.enabled = true ∧
      (w.conclude d p f).depot.ledger.pending l + (w.conclude d p f).worker.inFlight l =
        d.ledger.pending l + settledLoss (w.conclude d p f).settled.toList l := by
  obtain ⟨he', hl⟩ := settle_pending he p f l
  refine ⟨he', ?_⟩
  simp only [conclude, Option.toList_some, settledLoss_single, hl, finish, inFlight, sending?]
  simp

theorem abandon_balance (hp : w.position = .closing) (he : d.ledger.enabled = true) (p : Parcel) (l : Loss) :
    (w.abandon d p).depot.ledger.enabled = true ∧
      (w.abandon d p).depot.ledger.pending l + (w.abandon d p).worker.inFlight l =
        d.ledger.pending l + settledLoss (w.abandon d p).settled.toList l := by
  have hf := w.forsake_ledger d p
  obtain ⟨h, hw⟩ := w.forsake_worker d p
  obtain ⟨he', hl⟩ := settle_pending (by rw [hf]; exact he) p (w.forsake d p).1 l
  refine ⟨he', ?_⟩
  rw [hf] at hl
  simp only [abandon, Option.toList_some, settledLoss_single, hl, inFlight, sending?, release_position, hw, hp]
  simp

/-- A move changes what is counted and what is on its way by what was lost in it. -/
theorem Move.balance {x : Stride} (hm : w.Move d x) (he : d.ledger.enabled = true) (l : Loss) :
    x.depot.ledger.enabled = true ∧
      x.depot.ledger.pending l + x.worker.inFlight l =
        d.ledger.pending l + w.inFlight l + settledLoss x.settled.toList l := by
  cases hm with
  | close hp => exact ⟨he, by simp [inFlight, sending?, hp]⟩
  | take hp => exact ⟨he, by simp [inFlight, sending?, hp]⟩
  | @begin p hp =>
    rw [begin_ledger, begin_settled, inFlight_of_not_sending (begin_sending? w d p)]
    exact ⟨he, by simp [inFlight, sending?, hp]⟩
  | @hand p n out d' hp hl hn =>
    have h := Depot.load_pending he w.reportLosses p.envelope l
    rw [hl] at h
    exact ⟨h.1, by simp [inFlight, sending?, hp, ← h.2]⟩
  | @blank p n out d' hp hl hn =>
    have h := Depot.load_pending he w.reportLosses p.envelope l
    rw [hl] at h
    have hc := conclude_balance (w := w) h.1 p .delivered l
    refine ⟨hc.1, hc.2.trans ?_⟩
    -- what there is no use in sending carries no report
    have hz : out.carries l = 0 := by
      rw [show out = (d.load w.reportLosses p.envelope).1 by rw [hl]] at hn ⊢
      exact (Depot.load_blank hn).2 l
    simp [inFlight, sending?, hp, ← h.2, hz]
  | @pause p n out e hp hv =>
    have h := Depot.failed_pending he out e l
    rw [inFlight_of_sending hp]
    exact ⟨h.1, by simp [inFlight, sending?, h.2]⟩
  | @fail p n out e f hp hv =>
    have h := Depot.failed_pending he out e l
    have hc := conclude_balance (w := w) h.1 p f l
    refine ⟨hc.1, hc.2.trans ?_⟩
    rw [inFlight_of_sending hp, h.2]
  | @yield p f hy =>
    have hc := conclude_balance (w := w) he p f l
    refine ⟨hc.1, hc.2.trans ?_⟩
    cases hy with
    | due hp => simp [inFlight, sending?, hp]
    | pausing hp => simp [inFlight, sending?, hp]
  | @abandon p rest hp hq =>
    have ha := abandon_balance (w := { w with queue := rest }) hp he p l
    refine ⟨ha.1, ha.2.trans ?_⟩
    simp [inFlight, sending?, hp]
  | stop hp hq =>
    rw [stop_ledger, stop_settled, inFlight_of_not_sending (stop_sending? w d)]
    exact ⟨he, by simp [inFlight, sending?, hp]⟩

end Worker

/-! ## Desks -/

namespace Desk

def lost (k : Desk) (l : Loss) : UInt64 := settledLoss k.settled l + (k.refused.map fun x => x.1.lossAs x.2 l).sum

/-- What has left the ledger at this desk, less what was lost there. -/
def owed (k : Desk) (l : Loss) : UInt64 := arrivedLoss k.answers l + k.worker.inFlight l - k.lost l

variable {k k' : Desk} {d d' : Depot}

/-- Nothing is on its way. -/
theorem owed_idle (hs : k.worker.sending? = none) (l : Loss) : k.owed l + k.lost l = arrivedLoss k.answers l := by
  rw [owed, Worker.inFlight_of_not_sending hs]
  grind

theorem Change.balance (hc : k.Change d k' d') (he : d.ledger.enabled = true) (l : Loss) :
    d'.ledger.enabled = true ∧ d'.ledger.pending l + k'.owed l = d.ledger.pending l + k.owed l := by
  cases hc with
  | step hm =>
    have h := hm.balance he l
    refine ⟨h.1, ?_⟩
    simp only [owed, lost, moved, settledLoss_append]
    grind
  | @error p n out hp e =>
    have h := (Worker.answered_move hp e).balance he l
    refine ⟨h.1, ?_⟩
    simp only [owed, lost, moved, settledLoss_append, arrivedLoss_append, arrivedLoss_error]
    grind
  | @arrive p n out hp =>
    have h := Worker.conclude_balance (w := k.worker) he p .delivered l
    refine ⟨h.1, ?_⟩
    have hf := Worker.inFlight_of_sending (l := l) hp
    simp only [owed, lost, moved, settledLoss_append, arrivedLoss_append, arrivedLoss_ok]
    grind
  | resume hp =>
    refine ⟨he, ?_⟩
    simp [owed, lost, Worker.inFlight, Worker.sending?, hp]
  | accept => exact ⟨he, rfl⟩
  | @refuse d' e reason? hd =>
    have hp : d'.ledger.pending l = d.ledger.pending l := by rw [hd.ledger]
    have he' : d'.ledger.enabled = true := by rw [hd.ledger]; exact he
    simp only [owed, lost, List.map_append, List.sum_append, List.map_cons, List.map_nil, List.sum_cons,
      List.sum_nil]
    cases reason? with
    | none => exact ⟨he', by simp [Depot.counted, hp]⟩
    | some reason =>
      have h := Depot.account_pending he' reason e l
      refine ⟨h.1, ?_⟩
      simp only [Depot.counted]
      grind
  | polled waits hw =>
    refine ⟨he, ?_⟩
    cases hw <;> rfl

end Desk

/-! ## Offices -/

namespace Office

/-- What has left the ledger in an office, less what was lost there. -/
def owed (s : Office) (l : Loss) : UInt64 := (s.desks.map (·.owed l)).sum

theorem sum_set {α : Type} (f : α → UInt64) (b : α) :
    ∀ {xs : List α} {i : Nat} {a : α}, xs[i]? = some a →
      ((xs.set i b).map f).sum + f a = (xs.map f).sum + f b
  | x :: xs, 0, a, h => by
    cases h
    simp only [List.set_cons_zero, List.map_cons, List.sum_cons]
    grind
  | x :: xs, i + 1, a, h => by
    have ih := sum_set f b (i := i) (by simpa using h)
    simp only [List.set_cons_succ, List.map_cons, List.sum_cons]
    grind

theorem owed_fresh {w : Worker} (hw : w.Fresh) (l : Loss) : (Desk.opened w).owed l = 0 := by
  simp [Desk.owed, Desk.opened, arrivedLoss, Desk.lost, Worker.inFlight, Worker.sending?, hw.position]

variable {s t : Office} {l : Loss}

theorem after?_balance {e : Event} (h : s.after? e = some t) (he : s.depot.ledger.enabled = true) (l : Loss) :
    t.depot.ledger.enabled = true ∧
      t.depot.ledger.pending l + t.owed l = s.depot.ledger.pending l + s.owed l := by
  cases e with
  | desk i a =>
    obtain ⟨k, k', hk, hc, hd, -⟩ := after?_desk h
    obtain ⟨he', hb⟩ := hc.balance he l
    refine ⟨he', ?_⟩
    have hs := sum_set (fun k : Desk => k.owed l) k' hk
    simp only [owed, hd]
    grind
  | clock n =>
    cases h
    exact ⟨he, rfl⟩
  | failWrites on =>
    cases h
    exact ⟨he, rfl⟩
  | start durable settings =>
    cases h
    refine ⟨he, ?_⟩
    show s.depot.ledger.pending l + _ = _
    rcases s.started_fresh durable settings with hd | ⟨w, hd, hw⟩
    · simp only [owed, hd]
    · simp only [owed, hd, List.map_append, List.sum_append, List.map_cons, List.map_nil, List.sum_cons, List.sum_nil,
        owed_fresh hw]
      simp

theorem Reach.balance {allowed : Office → Event → Prop} {first : Office} (hr : Reach allowed first s)
    (he : first.depot.ledger.enabled = true) (l : Loss) :
    s.depot.ledger.enabled = true ∧
      s.depot.ledger.pending l + s.owed l = first.depot.ledger.pending l + first.owed l := by
  induction hr with
  | refl => exact ⟨he, rfl⟩
  | next e hr ha ht ih =>
    obtain ⟨he', hb⟩ := after?_balance ht ih.1 l
    exact ⟨he', hb.trans ih.2⟩

end Office

end Courier

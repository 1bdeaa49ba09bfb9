import Courier.Proofs.Reports
import Courier.Proofs.WithoutFiles

/-!
# Meanwhile

What a worker does with an envelope takes a while, and others do not wait for it. They offer envelopes, wait for the
worker, tell it to give up, and count losses in the ledger that its reports are taken from. All this leaves the
envelope in hand as it is. What the worker itself does with it is listed by `Goes`.
-/

namespace Courier

open Tally (weight)

/-! ## What is recorded -/

/-- What this much adds to a count when it is recorded. -/
def Ledger.gain (led : Ledger) (n : UInt64) : UInt64 := if led.enabled then n else 0

/-- The ledger when this much of each loss was recorded. -/
structure Ledger.Grows (led : Ledger) (more : Loss → UInt64) (led' : Ledger) : Prop where
  enabled : led'.enabled = led.enabled
  pending : ∀ l, led'.pending l = led.pending l + led.gain (more l)

/-- The ledger when this much was recorded and this much has left it in a report, and could be put back. -/
structure Ledger.Lends (led : Ledger) (more lent : Loss → UInt64) (led' : Ledger) : Prop where
  enabled : led'.enabled = led.enabled
  returnable : ∀ l, led.gain (lent l) = lent l
  pending : ∀ l, led'.pending l + lent l = led.pending l + led.gain (more l)

namespace Ledger

variable {led led' led'' : Ledger} {more more' lent : Loss → UInt64}

@[simp] theorem gain_zero (led : Ledger) : led.gain 0 = 0 := by
  unfold gain
  split <;> rfl

theorem gain_add (led : Ledger) (m n : UInt64) : led.gain (m + n) = led.gain m + led.gain n := by
  unfold gain
  split
  · rfl
  · simp

@[simp] theorem gain_gain (led : Ledger) (n : UInt64) : led.gain (led.gain n) = led.gain n := by
  unfold gain
  split <;> rfl

theorem gain_congr (h : led'.enabled = led.enabled) (n : UInt64) : led'.gain n = led.gain n := by
  rw [gain, h]
  rfl

theorem Grows.refl (led : Ledger) : led.Grows (fun _ => 0) led := ⟨rfl, fun l => by simp⟩

theorem Grows.trans (h : led.Grows more led') (h' : led'.Grows more' led'') :
    led.Grows (fun l => more l + more' l) led'' := by
  refine ⟨h'.enabled.trans h.enabled, fun l => ?_⟩
  rw [h'.pending, h.pending, gain_congr h.enabled, gain_add, UInt64.add_assoc]

theorem Lends.grow (h : led.Lends more lent led') (h' : led'.Grows more' led'') :
    led.Lends (fun l => more l + more' l) lent led'' := by
  refine ⟨h'.enabled.trans h.enabled, h.returnable, fun l => ?_⟩
  have hp := h.pending l
  rw [h'.pending, gain_congr h.enabled, gain_add]
  grind

theorem Lends.of_grows (h : led.Grows more led') : led.Lends more (fun _ => 0) led' :=
  ⟨h.enabled, fun _ => led.gain_zero, fun l => by rw [h.pending l, UInt64.add_zero]⟩

/-- What was lent is put back, and the ledger is as if nothing had left it. -/
theorem Lends.giveBack (h : led.Lends more lent led') (h' : led'.Grows lent led'') : led.Grows more led'' := by
  refine ⟨h'.enabled.trans h.enabled, fun l => ?_⟩
  rw [h'.pending, gain_congr h.enabled, h.returnable, h.pending]

theorem grows_recordAll (led : Ledger) (losses : List (Loss × UInt64)) :
    led.Grows (fun l => weight l losses) (led.recordAll losses) := by
  refine ⟨led.recordAll_enabled losses, fun l => ?_⟩
  unfold gain
  cases he : led.enabled with
  | true => exact recordAll_pending he losses l
  | false => simp [recordAll_disabled he]

theorem grows_recordEnvelope (led : Ledger) (reason : LossReason) (e : Envelope) :
    led.Grows (e.lossAs (some reason)) (led.recordEnvelope reason e) := by
  have h := led.grows_recordAll (e.losses reason)
  rwa [show (fun l => weight l (e.losses reason)) = e.lossAs (some reason) from
    funext fun l => e.weight_losses reason l] at h

theorem grows_restore (led : Ledger) (r : LossReport) : led.Grows r.quantity (led.restore r) := by
  have h := led.grows_recordAll r.entries
  rwa [show (fun l => weight l r.entries) = r.quantity from funext r.weight_entries] at h

end Ledger

namespace Depot

theorem grows_counted (d : Depot) (e : Envelope) (reason? : Option LossReason) :
    d.ledger.Grows (e.lossAs reason?) (d.counted e reason?).ledger := by
  cases reason? with
  | none => exact .refl d.ledger
  | some reason => exact d.ledger.grows_recordEnvelope reason e

theorem grows_failed (d : Depot) (o : Outbound) (e : SendError) : d.ledger.Grows o.carries (d.failed o e).ledger := by
  rw [failed_ledger, unload]
  cases hr : o.report with
  | none =>
    have hz : o.carries = fun _ => 0 := funext fun l => by simp [Outbound.carries, hr]
    rw [hz]
    exact .refl d.ledger
  | some r =>
    have hz : o.carries = r.quantity := funext fun l => by simp [Outbound.carries, hr]
    rw [hz]
    exact d.ledger.grows_restore r

theorem load_enabled (d : Depot) (b : Bool) (e : Envelope) : (d.load b e).2.ledger.enabled = d.ledger.enabled := by
  unfold load
  split
  · rw [← d.ledger.report_enabled d.clock.now]
    rcases d.ledger.report d.clock.now with ⟨_ | r, led⟩ <;> rfl
  · rfl

theorem load_takes (d : Depot) (b : Bool) (e : Envelope) (l : Loss) :
    (d.load b e).1.carries l = (if b then d.ledger.gain (d.ledger.pending l) else 0) ∧
      (d.load b e).2.ledger.pending l + (d.load b e).1.carries l = d.ledger.pending l := by
  cases b with
  | false => exact ⟨rfl, by simp [load, Outbound.carries]⟩
  | true =>
    cases he : d.ledger.enabled with
    | false =>
      have hl : d.load true e = (⟨e, none⟩, d) := by simp only [load, if_true, Ledger.report_disabled he]
      simp [hl, Outbound.carries, Ledger.gain, he]
    | true =>
      refine ⟨?_, (load_pending he true e l).2⟩
      have hq := d.ledger.report_quantity he d.clock.now l
      simp only [load, if_true, Ledger.gain, he]
      rw [← hq]
      cases (d.ledger.report d.clock.now).1 <;> rfl

theorem load_lends {led : Ledger} {more : Loss → UInt64} {d : Depot} (h : led.Grows more d.ledger) (b : Bool)
    (e : Envelope) : led.Lends more (d.load b e).1.carries (d.load b e).2.ledger := by
  refine ⟨(d.load_enabled b e).trans h.enabled, fun l => ?_, fun l => (d.load_takes b e l).2.trans (h.pending l)⟩
  rw [(d.load_takes b e l).1, ← Ledger.gain_congr h.enabled]
  cases b <;> simp

end Depot

namespace Worker

theorem settle_grows (d : Depot) (p : Parcel) (f : Fate) :
    d.ledger.Grows (p.envelope.lossAs f.lossReason?) (settle d p f).ledger := by
  cases f with
  | delivered => exact .refl d.ledger
  | failed e => exact d.ledger.grows_recordEnvelope e.lossReason p.envelope
  | abandoned reason => exact d.ledger.grows_recordEnvelope reason p.envelope
  | kept file => exact .refl d.ledger

end Worker

/-! ## What others do -/

/-- The worker goes on by its steps, by the answers to it, and when its pauses are over. -/
def Happening.isOwn : Happening → Bool
  | .act .step => true
  | .act (.answer _) => true
  | .act .resume => true
  | _ => false

def Occurrence.isOwn : Occurrence → Bool
  | .here a => a.isOwn
  | .elsewhere .. => false

namespace Desk

/-- What those count who are refused. -/
def refusal (k : Desk) (d : Depot) : Happening → Loss → UInt64
  | .act (.offer e reason?) =>
    match (k.worker.enqueue d e).1 with
    | .ok true => fun _ => 0
    | _ => e.lossAs reason?
  | _ => fun _ => 0

/-- What others record by this. Elsewhere the ledger is only recorded in. -/
inductive Records (k : Desk) (d : Depot) : Occurrence → (Loss → UInt64) → Prop
  | here (a : Happening) : Records k d (.here a) (k.refusal d a)
  | elsewhere {ledger clock monitor storage} (losses : List (Loss × UInt64))
    (hl : ledger d.ledger = d.ledger.recordAll losses) :
    Records k d (.elsewhere ledger clock monitor storage) fun l => weight l losses

theorem Records.own {k : Desk} {d : Depot} {o : Occurrence} {add : Loss → UInt64} (hr : k.Records d o add)
    (hown : o.isOwn = true) : add = fun _ => 0 := by
  cases hr with
  | elsewhere => cases hown
  | here a =>
    cases a with
    | drop => rfl
    | timeUp => rfl
    | act a =>
      cases a with
      | offer => cases hown
      | step => rfl
      | answer => rfl
      | resume => rfl
      | call => rfl
      | look => rfl

/-- What comes about by occurrences of one kind: how often the worker has gone on, and what others have recorded. -/
inductive Meanwhile (allowed : Desk → Depot → Occurrence → Prop) (k₀ : Desk) (d₀ : Depot) :
    Nat → (Loss → UInt64) → Desk → Depot → Prop
  | refl : Meanwhile allowed k₀ d₀ 0 (fun _ => 0) k₀ d₀
  | next {n more add k d k' d'} (o : Occurrence) (hm : Meanwhile allowed k₀ d₀ n more k d) (ha : allowed k d o)
    (hr : k.Records d o add) (ho : k.occurs? d o = some (k', d')) :
    Meanwhile allowed k₀ d₀ (n + o.isOwn.toNat) (fun l => more l + add l) k' d'

/-- The worker has not gone on: what it has in hand and what it has done is as before, and the ledger has grown. -/
structure Still (k : Desk) (d : Depot) (more : Loss → UInt64) (k' : Desk) (d' : Depot) : Prop where
  position : k'.worker.position = k.worker.position
  handling : k'.worker.handling = k.worker.handling
  handed : k'.handed = k.handed
  answers : k'.answers = k.answers
  settled : k'.settled = k.settled
  ledger : d.ledger.Grows more d'.ledger

variable {k k' k'' : Desk} {d d' d'' : Depot} {more add : Loss → UInt64} {o : Occurrence}

theorem Still.trans (h : k.Still d more k' d') (h' : k'.Still d' add k'' d'') :
    k.Still d (fun l => more l + add l) k'' d'' :=
  ⟨h'.position.trans h.position, h'.handling.trans h.handling, h'.handed.trans h.handed,
    h'.answers.trans h.answers, h'.settled.trans h.settled, h.ledger.trans h'.ledger⟩

theorem Still.polled {w' : Worker} (waits : List Wait) (hw : k.worker.Polled w') :
    k.Still d (fun _ => 0) { k with worker := w', waits := waits } d := by
  cases hw <;> exact ⟨rfl, rfl, rfl, rfl, rfl, .refl d.ledger⟩

theorem Still.offered (k : Desk) (d : Depot) (e : Envelope) (reason? : Option LossReason) :
    k.Still d (k.refusal d (.act (.offer e reason?))) (k.offered d e reason?).1 (k.offered d e reason?).2 := by
  have hx := Worker.enqueue_offered k.worker d e
  simp only [Desk.offered, refusal]
  generalize k.worker.enqueue d e = x at hx
  cases hx with
  | taken => exact ⟨rfl, rfl, rfl, rfl, rfl, .refl d.ledger⟩
  | disposed => exact ⟨rfl, rfl, rfl, rfl, rfl, d.grows_counted e reason?⟩
  | empty => exact ⟨rfl, rfl, rfl, rfl, rfl, d.grows_counted e reason?⟩
  | full => exact ⟨rfl, rfl, rfl, rfl, rfl, d.noteOverflow.grows_counted e reason?⟩

theorem still_happens {a : Happening} (ho : a.isOwn = false) (h : k.happens? d a = some (k', d')) :
    k.Still d (k.refusal d a) k' d' ∧ d'.storage = d.storage := by
  cases a with
  | act a =>
    cases a with
    | step => cases ho
    | answer => cases ho
    | resume => cases ho
    | offer e reason? =>
      have hs := Still.offered k d e reason?
      have hd : (k.offered d e reason?).2.storage = d.storage := by
        unfold Desk.offered
        have hx := Worker.enqueue_offered k.worker d e
        generalize k.worker.enqueue d e = x at hx
        cases hx <;> cases reason? <;> rfl
      have he : k.offered d e reason? = (k', d') := Option.some.inj h
      rw [he] at hs hd
      exact ⟨hs, hd⟩
    | call e =>
      cases h
      exact ⟨.polled _ .same, rfl⟩
    | look n now =>
      obtain ⟨x, _, he⟩ := Option.map_eq_some_iff.mp h
      cases he
      exact ⟨.polled _ (Worker.poll_polled now x), rfl⟩
  | drop timed =>
    cases h
    exact ⟨.polled k.waits (k.worker.letGo_polled timed), rfl⟩
  | timeUp =>
    simp only [happens?] at h
    split at h <;> cases h
    exact ⟨.polled k.waits .aborted, rfl⟩

theorem still_occurs (ho : o.isOwn = false) (hr : k.Records d o add) (h : k.occurs? d o = some (k', d')) :
    k.Still d add k' d' := by
  cases hr with
  | here a => exact (still_happens ho h).1
  | elsewhere losses hl =>
    cases h
    refine ⟨rfl, rfl, rfl, rfl, rfl, ?_⟩
    simp only [hl]
    exact d.ledger.grows_recordAll losses

theorem Meanwhile.still {allowed : Desk → Depot → Occurrence → Prop} (hm : k.Meanwhile allowed d 0 more k' d') :
    k.Still d more k' d' := by
  generalize hn : 0 = n at hm
  induction hm with
  | refl => exact ⟨rfl, rfl, rfl, rfl, rfl, .refl d.ledger⟩
  | next o _ _ hr ho ih =>
    have hown : o.isOwn = false := by
      cases h : o.isOwn with
      | false => rfl
      | true => simp [h] at hn
    rw [hown] at hn
    exact (ih hn).trans (still_occurs hown hr ho)

end Desk

/-! ## What the worker does -/

def Depot.after (d : Depot) (out : Outbound) : Except SendError Unit → Depot
  | .ok _ => d
  | .error e => d.failed out e

namespace Worker

def returned (w : Worker) (d : Depot) (p : Parcel) (n : UInt32) : Except SendError Unit → Stride
  | .ok _ => w.conclude d p .delivered
  | .error e => w.failed d p n e

variable {w : Worker} {d : Depot} {p : Parcel} {n : UInt32} {out : Outbound}

theorem answered_returned (hp : w.position = .sending p n out) (r : Except SendError Unit) :
    w.answered d r = w.returned (d.after out r) p n r := by
  cases r <;> simp only [answered, hp] <;> rfl

theorem sending?_returned (w : Worker) (d : Depot) (p : Parcel) (n : UInt32) (r : Except SendError Unit) :
    (w.returned d p n r).worker.sending? = none := by
  cases r with
  | ok => rfl
  | error e =>
    simp only [returned, failed]
    split <;> rfl

end Worker

namespace Desk

/-- What the worker does with the envelope in hand. -/
inductive Goes (k : Desk) (d : Depot) : Desk → Depot → Prop
  | begins {p} (hp : k.worker.position = .taken p) :
    Goes k d (k.moved (k.worker.begin d p)) (k.worker.begin d p).depot
  | yields {p n} (hp : k.worker.position = .due p n) (ha : k.worker.aborted = true) :
    Goes k d (k.moved (k.worker.returned d p n (.error .cancelled)))
      (k.worker.returned d p n (.error .cancelled)).depot
  | skips {p n out d'} (hp : k.worker.position = .due p n) (ha : k.worker.aborted = false)
    (hl : d.load k.worker.reportLosses p.envelope = (out, d')) (hn : out.envelope.isEmpty = true) :
    Goes k d (k.moved (k.worker.returned d' p n (.ok ()))) (k.worker.returned d' p n (.ok ())).depot
  | hands {p n out d'} (hp : k.worker.position = .due p n) (ha : k.worker.aborted = false)
    (hl : d.load k.worker.reportLosses p.envelope = (out, d')) (hn : out.envelope.isEmpty = false) :
    Goes k d (k.moved ⟨{ k.worker with position := .sending p n out }, d', none⟩) d'
  | answered {p n out} (r : Except SendError Unit) (hp : k.worker.position = .sending p n out)
    (ha : k.worker.aborted = false) :
    Goes k d { k.moved (k.worker.returned (d.after out r) p n r) with answers := k.answers ++ [(p, out, r)] }
      (k.worker.returned (d.after out r) p n r).depot
  | breaksOff {p n out} (hp : k.worker.position = .sending p n out) (ha : k.worker.aborted = true) :
    Goes k d (k.moved (k.worker.returned (d.failed out .cancelled) p n (.error .cancelled)))
      (k.worker.returned (d.failed out .cancelled) p n (.error .cancelled)).depot
  | resumes {p n} (hp : k.worker.position = .pausing p n) (ha : k.worker.aborted = false) :
    Goes k d { k with worker := { k.worker with position := .due p (n + 1) } } d
  | wakes {p n} (hp : k.worker.position = .pausing p n) (ha : k.worker.aborted = true) :
    Goes k d (k.moved (k.worker.conclude d p p.interrupted)) (k.worker.conclude d p p.interrupted).depot

variable {k k' : Desk} {d d' : Depot} {o : Occurrence} {p : Parcel} {n : UInt32}

theorem goes_send (hp : k.worker.position = .due p n) :
    k.Goes d (k.moved (k.worker.send d p n)) (k.worker.send d p n).depot := by
  unfold Worker.send
  split
  · next ha => exact .yields hp ha
  · next ha =>
    rcases hl : d.load k.worker.reportLosses p.envelope with ⟨out, d'⟩
    simp only
    split
    · next hn => exact .skips hp (by simpa using ha) hl hn
    · next hn => exact .hands hp (by simpa using ha) hl (by simpa using hn)

theorem goes_step (hh : k.worker.hand?.isSome = true) (h : k.act? d .step = some (k', d')) : k.Goes d k' d' := by
  obtain ⟨x, hx, he⟩ := Option.map_eq_some_iff.mp h
  cases he
  unfold Worker.step? at hx
  split at hx
  · next hp => simp [Worker.hand?, hp] at hh
  · next hp => cases hx; exact .begins hp
  · next hp => cases hx; exact goes_send hp
  · next hp =>
    split at hx
    · next ha => cases hx; exact .breaksOff hp ha
    · cases hx
  · next hp =>
    split at hx
    · next ha => cases hx; exact .wakes hp ha
    · cases hx
  · next hp => simp [Worker.hand?, hp] at hh
  · cases hx

theorem goes_answer {r : Except SendError Unit} (h : k.act? d (.answer r) = some (k', d')) : k.Goes d k' d' := by
  simp only [act?] at h
  split at h
  · next p out hs =>
    obtain ⟨n, hp⟩ := Worker.sending?_eq_some hs
    split at h
    · cases h
    · next ha =>
      cases h
      rw [Worker.answered_returned hp]
      exact .answered r hp (by simpa using ha)
  · cases h

theorem goes_resume (h : k.act? d .resume = some (k', d')) : k.Goes d k' d' := by
  simp only [act?] at h
  split at h
  · next hb =>
    simp only [Bool.and_eq_true, Bool.not_eq_true'] at hb
    obtain ⟨p, n, hp⟩ := Worker.isPausing_eq_true hb.1
    cases h
    simp only [Worker.resumed, hp]
    exact .resumes hp hb.2
  · cases h

theorem occurs?_goes (hh : k.worker.hand?.isSome = true) (hown : o.isOwn = true) (h : k.occurs? d o = some (k', d')) :
    k.Goes d k' d' := by
  cases o with
  | elsewhere => cases hown
  | here a =>
    cases a with
    | drop => cases hown
    | timeUp => cases hown
    | act a =>
      cases a with
      | step => exact goes_step hh h
      | answer r => exact goes_answer h
      | resume => exact goes_resume h
      | offer => cases hown
      | call => cases hown
      | look => cases hown

/-- Nothing holds up the worker but the transport, which may answer anything, and a pause; and these do not once it
is told to give up. -/
structure Open (k : Desk) (d : Depot) : Prop where
  step : (k.worker.aborted = true ∨ k.worker.sending? = none ∧ k.worker.isPausing = false) →
    (k.act? d .step).isSome = true
  answer : k.worker.aborted = false → k.worker.sending?.isSome = true → ∀ r, (k.act? d (.answer r)).isSome = true
  resume : k.worker.aborted = false → k.worker.isPausing = true → (k.act? d .resume).isSome = true

/-- What is in hand does not stay there for want of anything that the worker could do. -/
theorem open_of_hand (d : Depot) (hh : k.worker.hand?.isSome = true) : k.Open d where
  step hs := by
    rw [act?, Option.isSome_map, Worker.step?]
    cases hp : k.worker.position with
    | idle => simp [Worker.hand?, hp] at hh
    | taken => rfl
    | due => rfl
    | sending =>
      rcases hs with ha | ⟨hs, -⟩
      · simp [ha]
      · simp [Worker.sending?, hp] at hs
    | pausing =>
      rcases hs with ha | ⟨-, hs⟩
      · simp [ha]
      · simp [Worker.isPausing, hp] at hs
    | closing => simp [Worker.hand?, hp] at hh
    | stopped => simp [Worker.hand?, hp] at hh
  answer ha hs r := by
    obtain ⟨⟨p, out⟩, hs⟩ := Option.isSome_iff_exists.mp hs
    simp [act?, hs, ha]
  resume ha hp := by simp [act?, ha, hp]

end Desk

end Courier

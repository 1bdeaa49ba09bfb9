import Courier.Delivery.Wait

/-!
# Workers in any order

An office is any number of workers over one depot. What happens in it are the single steps of its workers,
the answers of the transport, the calls of those who use a worker, and what becomes of the clock and of the
files. All this comes in any order, so what holds whatever happened holds under every schedule. Each desk
keeps a record of what went over it.
-/

namespace Courier

/-- A worker, those who wait for it, and what went over its desk so far, first come first. -/
structure Desk where
  worker : Worker
  waits : List Wait := []
  /-- What the worker found in its files when it started. -/
  backlog : List (Envelope × Path) := []
  /-- What the queue has taken. -/
  accepted : List Envelope := []
  /-- What the queue has refused, and what the caller counted it as, if it did. -/
  refused : List (Envelope × Option LossReason) := []
  handed : List (Parcel × Outbound) := []
  answers : List (Parcel × Outbound × Except SendError Unit) := []
  settled : List (Parcel × Fate) := []

/-- What happens at a desk. -/
inductive Act
  | step
  /-- The transport is done with the envelope that it has. -/
  | answer (r : Except SendError Unit)
  /-- The pause before the next send is over. -/
  | resume
  /-- Somebody offers an envelope, and counts it under this reason if it is refused. -/
  | offer (e : Envelope) (reason? : Option LossReason)
  /-- Somebody begins to wait. -/
  | call (e : Errand)
  /-- One of those who wait looks at the worker, at this time. -/
  | look (wait : Nat) (now : Nat)

structure Office where
  depot : Depot
  desks : List Desk := []
  /-- How many names of files were used up. -/
  names : Nat := 0

inductive Event
  | desk (i : Nat) (a : Act)
  | clock (t : Timestamp)
  | failWrites (on : Bool)
  /-- Somebody starts a worker, one that keeps envelopes in files or one that does not. -/
  | start (durable : Bool) (s : Settings)

/-! ## Acts at a desk -/

namespace Worker

def sending? (w : Worker) : Option (Parcel × Outbound) :=
  match w.position with
  | .sending p _ out => some (p, out)
  | _ => none

def hand? (w : Worker) : Option Parcel :=
  match w.position with
  | .taken p => some p
  | .due p _ => some p
  | .sending p _ _ => some p
  | .pausing p _ => some p
  | _ => none

def isPausing (w : Worker) : Bool :=
  match w.position with
  | .pausing _ _ => true
  | _ => false

/-- All that is not done with, in the order in which it came. -/
def parcels (w : Worker) : List Parcel := w.hand?.toList ++ w.queue

def sequence (w : Worker) : UInt64 := (w.spillDir?.map (·.sequence)).getD 0

end Worker

namespace Desk

def opened (w : Worker) : Desk where
  worker := w
  backlog := w.queue.filterMap fun p => p.file.map fun file => (p.envelope, file)

def moved (k : Desk) (x : Stride) : Desk :=
  { k with
    worker := x.worker
    handed := k.handed ++ x.worker.sending?.toList
    settled := k.settled ++ x.settled.toList }

def offered (k : Desk) (d : Depot) (e : Envelope) (reason? : Option LossReason) : Desk × Depot :=
  match k.worker.enqueue d e with
  | (.ok true, w, d) => ({ k with worker := w, accepted := k.accepted ++ [e] }, d)
  | (_, w, d) =>
    ({ k with worker := w, refused := k.refused ++ [(e, reason?)] },
      match reason? with
      | some reason => d.account reason e
      | none => d)

/-- What an act leads to, if it can happen. Once the worker is told to give up, no answer and no end of a pause
reaches it any more. -/
def act? (k : Desk) (d : Depot) : Act → Option (Desk × Depot)
  | .step => (k.worker.step? d).map fun x => (k.moved x, x.depot)
  | .answer r =>
    match k.worker.sending? with
    | some (p, out) =>
      if k.worker.aborted then none
      else
        let x := k.worker.answered d r
        some ({ k.moved x with answers := k.answers ++ [(p, out, r)] }, x.depot)
    | none => none
  | .resume =>
    if k.worker.isPausing && !k.worker.aborted then some ({ k with worker := k.worker.resumed }, d)
    else none
  | .offer e reason? => some (k.offered d e reason?)
  | .call e => some ({ k with waits := k.waits ++ [.begun e] }, d)
  | .look n now =>
    (k.waits[n]?).map fun x =>
      let (w, x) := x.poll now k.worker d
      ({ k with worker := w, waits := k.waits.set n x }, d)

end Desk

/-! ## Events -/

namespace Office

def started (s : Office) (durable : Bool) (settings : Settings) : Office :=
  let (r, storage) :=
    if durable then Worker.startDurable settings s.depot.storage
    else (Worker.start settings, s.depot.storage)
  { s with
    depot := { s.depot with storage := storage }
    desks :=
      match r with
      | .ok w => s.desks ++ [.opened w]
      | .error _ => s.desks }

def after? (s : Office) : Event → Option Office
  | .desk i a =>
    (s.desks[i]?).bind fun k =>
      (k.act? s.depot a).map fun (after, depot) =>
        { depot := depot
          desks := s.desks.set i after
          names := s.names + (after.worker.sequence - k.worker.sequence).toNat }
  | .clock t => some { s with depot := { s.depot with clock := ⟨t⟩ } }
  | .failWrites on =>
    some { s with depot := { s.depot with
      storage := { s.depot.storage with files := { s.depot.storage.files with failWrites := on } } } }
  | .start durable settings => some (s.started durable settings)

/-- What comes about by events of one kind. -/
inductive Reach (allowed : Office → Event → Prop) (first : Office) : Office → Prop
  | refl : Reach allowed first first
  | next {s t : Office} (e : Event) (hr : Reach allowed first s) (ha : allowed s e) (ht : s.after? e = some t) :
    Reach allowed first t

theorem Reach.mono {allowed allowed' : Office → Event → Prop} {first s : Office}
    (h : ∀ s e, allowed s e → allowed' s e) (hr : Reach allowed first s) : Reach allowed' first s := by
  induction hr with
  | refl => exact .refl
  | next e _ ha ht ih => exact .next e ih (h _ e ha) ht

theorem Reach.trans {allowed : Office → Event → Prop} {first s t : Office} (hr : Reach allowed first s)
    (ht : Reach allowed s t) : Reach allowed first t := by
  induction ht with
  | refl => exact hr
  | next e _ ha ht ih => exact .next e ih ha ht

section
variable (allowed : Office → Event → Prop) [∀ s e, Decidable (allowed s e)]

/-- What these events lead to, if all of them can happen and are of the kind. -/
def run? (s : Office) (es : List Event) : Option Office :=
  es.foldlM (fun s e => if allowed s e then s.after? e else none) s

variable {allowed}

theorem Reach.of_run? {first s : Office} {es : List Event} (h : first.run? allowed es = some s) :
    Reach allowed first s := by
  suffices ∀ (es : List Event) (t : Office), Reach allowed first t → t.run? allowed es = some s → Reach allowed first s
    from this es first .refl h
  intro es
  induction es with
  | nil => intro t hr h; cases h; exact hr
  | cons e es ih =>
    intro t hr h
    obtain ⟨u, hu, h⟩ := Option.bind_eq_some_iff.mp (by simpa [run?] using h)
    split at hu
    · next ha => exact ih u (.next e hr ha hu) h
    · cases hu

end

end Office

/-- To take an envelope over is to offer it and to count it as an overflow of the queue if it is refused. -/
theorem Desk.offered_capture (k : Desk) (d : Depot) (e : Envelope) :
    let (after, depot) := k.offered d e (some .queueOverflow)
    (after.worker, depot) = k.worker.capture d e := by
  simp only [Desk.offered, Worker.capture]
  rcases k.worker.enqueue d e with ⟨r, w, d'⟩
  rcases r with _ | _ | _ <;> rfl

end Courier

import Courier.Proofs.GivingUp
import Courier.Proofs.Lock
import Courier.Proofs.Once

/-!
# Without files

A worker may be of the kind that keeps envelopes in files and yet get none of them into one: another worker has its
directory, or whatever it writes fails. If it may send but once, then it does all that a worker does that sends every
envelope once, step by step, and nobody who uses it can tell the two apart.
-/

namespace Courier

/-! ## What can be seen -/

/-- What happens to a worker, or elsewhere to what workers share. -/
inductive Occurrence
  | here (a : Happening)
  | elsewhere (ledger : Ledger → Ledger) (clock : Clock) (monitor : Option PressureMonitor → Option PressureMonitor)
    (storage : Storage → Storage)

/-- What those who use a worker can see of it, and what the transport and the ledger can. -/
structure View where
  phase : Phase
  queuedCount : Nat
  /-- What somebody is told who offers this envelope now. -/
  enqueue : Envelope → Except DeliveryError Bool
  accepted : List Envelope
  refused : List (Envelope × Option LossReason)
  waits : List Wait
  handed : List (Parcel × Outbound)
  settled : List (Parcel × Fate)
  ledger : Ledger

namespace Desk

def view (k : Desk) (d : Depot) : View where
  phase := k.worker.phase
  queuedCount := k.worker.queuedCount
  enqueue e := (k.worker.enqueue d e).1
  accepted := k.accepted
  refused := k.refused
  waits := k.waits
  handed := k.handed
  settled := k.settled
  ledger := d.ledger

def occurs? (k : Desk) (d : Depot) : Occurrence → Option (Desk × Depot)
  | .here a => k.happens? d a
  | .elsewhere ledger clock monitor storage =>
    some (k, ⟨ledger d.ledger, clock, monitor d.monitor, storage d.storage⟩)

/-- What all this leads to, if it can happen. -/
def after? (k : Desk) (d : Depot) : List Occurrence → Option (Desk × Depot)
  | [] => some (k, d)
  | o :: os => (k.occurs? d o).bind fun x => after? x.1 x.2 os

end Desk

/-- Nothing can be put into a file of this directory, though there is room for it. -/
structure Storage.Refuses (fs : Storage) (dir : Path) (capacity : Nat) : Prop where
  write : ∀ file data, ∃ e, (fs.write file data).1 = .error e
  room : ∀ files, fs.list dir SpillDir.extension = .ok files → files.length < capacity

theorem Storage.refuses_of_failWrites {fs : Storage} {dir : Path} {capacity : Nat} (hf : fs.files.failWrites = true)
    (hr : (fs.files.list dir SpillDir.extension).length < capacity) : fs.Refuses dir capacity where
  write file data := by
    simp only [Storage.write, MemoryFiles.write, hf, if_true]
    exact ⟨_, rfl⟩
  room files h := by
    unfold Storage.list at h
    split at h <;> cases h
    exact hr

/-! ## The same worker -/

def Worker.under (w : Worker) (h : Handling) : Worker := { w with handling := h }

def Depot.on (d : Depot) (fs : Storage) : Depot := { d with storage := fs }

def Stride.under (x : Stride) (h : Handling) (fs : Storage) : Stride := ⟨x.worker.under h, x.depot.on fs, x.settled⟩

def Desk.under (k : Desk) (h : Handling) : Desk := { k with worker := k.worker.under h }

/-- As `s`, but for the names that are used up and for the claim, which may be given up. -/
structure SpillDir.Like (s s' : SpillDir) : Prop where
  dir : s'.dir = s.dir
  enabled : s'.enabled = s.enabled
  capacity : s'.capacity = s.capacity

/-- Nothing that is written gets there. -/
def SpillDir.Shut (s : SpillDir) (fs : Storage) : Prop :=
  s.enabled = false ∨ fs.Refuses s.dir s.capacity.toNat

/-- The number of the send that comes next or is under way. -/
def Worker.attempt? (w : Worker) : Option UInt32 :=
  match w.position with
  | .due _ n => some n
  | .sending _ n _ => some n
  | _ => none

/-- No envelope is kept in a file, or was sent before. -/
structure Worker.Bare (w : Worker) : Prop extends w.SendsOnce where
  files : ∀ p ∈ w.parcels, p.file = none
  first : ∀ n, w.attempt? = some n → n = 1

namespace SpillDir

variable {s : SpillDir} {fs : Storage}

theorem Like.refl (s : SpillDir) : s.Like s := ⟨rfl, rfl, rfl⟩

theorem Shut.write (hs : s.Shut fs) (now : Timestamp) (e : Envelope) :
    ∃ r s', s.write fs now e = (r, s', fs) ∧ s.Like s' ∧ r.file? = none ∧ r.fate = .abandoned .sendError := by
  unfold SpillDir.write
  split
  · exact ⟨_, _, rfl, .refl s, rfl, rfl⟩
  · next hb =>
    simp only [Bool.or_eq_true, Bool.not_eq_true', not_or, Bool.not_eq_false] at hb
    obtain hs | hs := hs
    · exact absurd (hb.1.symm.trans hs) nofun
    -- there is room for one more file, so that it comes to a write, and that fails
    · cases hl : fs.list s.dir extension with
      | error e => exact ⟨_, _, rfl, .refl s, rfl, rfl⟩
      | ok files =>
        have hroom := hs.room files hl
        obtain ⟨er, hw⟩ := hs.write (s.nextFile now).1 e.toBytes
        rcases hx : fs.write (s.nextFile now).1 e.toBytes with ⟨r, fs'⟩
        rw [hx] at hw
        cases hw
        obtain rfl := Storage.write_error hx
        simp only [if_neg (Nat.not_le.mpr hroom), hx]
        exact ⟨_, _, rfl, ⟨rfl, rfl, rfl⟩, rfl, rfl⟩

end SpillDir

namespace Depot

variable (d : Depot) (fs : Storage)

theorem load_on (b : Bool) (e : Envelope) : (d.on fs).load b e = ((d.load b e).1, (d.load b e).2.on fs) := by
  unfold load
  split
  · simp only [on]
    rcases d.ledger.report d.clock.now with ⟨_ | r, ledger⟩ <;> rfl
  · rfl

theorem failed_on (out : Outbound) (e : SendError) : (d.on fs).failed out e = (d.failed out e).on fs := by
  unfold failed unload
  cases out.report <;> cases e <;> rfl

end Depot

namespace Worker

variable {w : Worker} {d : Depot} {p : Parcel} {s : SpillDir} {retry : RetryPolicy} {fs : Storage} {h : Handling}

@[simp] theorem under_phase : (w.under h).phase = w.phase := rfl

@[simp] theorem under_aborted : (w.under h).aborted = w.aborted := rfl

@[simp] theorem under_queue : (w.under h).queue = w.queue := rfl

@[simp] theorem under_queued : (w.under h).queued = w.queued := rfl

@[simp] theorem under_capacity : (w.under h).capacity = w.capacity := rfl

@[simp] theorem under_accepted : (w.under h).accepted = w.accepted := rfl

@[simp] theorem under_reportLosses : (w.under h).reportLosses = w.reportLosses := rfl

@[simp] theorem under_shutdownTimeout : (w.under h).shutdownTimeout = w.shutdownTimeout := rfl

theorem settle_on (hp : p.file = none) (f : Fate) : settle (d.on fs) p f = (settle d p f).on fs := by
  cases f <;> simp [settle, discardFile, SpillDir.remove, hp, Depot.on, Depot.account]

theorem release_under : (w.under h).release p = (w.release p).under h := by
  unfold release
  split <;> rfl

theorem conclude_under (hp : p.file = none) (f : Fate) :
    (w.under h).conclude (d.on fs) p f = (w.conclude d p f).under h fs := by
  simp only [conclude, finish, release_under, settle_on hp]
  rfl

theorem next?_under : (w.under h).next? = w.next?.map (·.under h) := by
  unfold next?
  by_cases hs : w.phase ≠ .running ∧ w.aborted
  · rw [if_pos hs, if_pos (show (w.under h).phase ≠ .running ∧ (w.under h).aborted from hs)]
    rfl
  · rw [if_neg hs, if_neg (show ¬ ((w.under h).phase ≠ .running ∧ (w.under h).aborted) from hs)]
    simp only [under]
    cases w.queue with
    | cons p rest => rfl
    | nil => by_cases hr : w.phase = .running <;> simp [hr]

theorem verdict?_single (hm : retry.maxAttempts = 1) (hp : p.file = none) (e : SendError) :
    (Handling.durable s retry).verdict? p 1 e = some (.failed e) := by
  have ha : retry.allows 1 = false := by
    rw [RetryPolicy.allows, hm]
    rfl
  cases e <;> simp [Handling.verdict?, Parcel.interrupted, hp, ha]

section
variable (hs : s.Shut fs) (hm : retry.maxAttempts = 1) (ho : w.handling = .once)

include hs in
theorem spill_under (w : Worker) (d : Depot) (retry : RetryPolicy) (e : Envelope) :
    ∃ r s', (w.under (.durable s retry)).spill (d.on fs) e = (r, w.under (.durable s' retry), d.on fs) ∧
      s.Like s' ∧ r.file? = none ∧ r.fate = .abandoned .sendError := by
  obtain ⟨r, s', hw, hl, hf, ha⟩ := hs.write d.clock.now e
  refine ⟨r, s', ?_, hl, hf, ha⟩
  simp only [spill, under, Depot.on] at hw ⊢
  rw [hw]

include hs ho in
theorem begin_under (d : Depot) (retry : RetryPolicy) (hp : p.file = none) :
    ∃ s', s.Like s' ∧
      (w.under (.durable s retry)).begin (d.on fs) p = (w.begin d p).under (.durable s' retry) fs := by
  obtain ⟨r, s', hw, hl, hf, -⟩ := spill_under hs w d retry p.envelope
  refine ⟨s', hl, ?_⟩
  have hb : w.spill d p.envelope = (.disabled, w, d) := by simp only [spill, ho]
  simp only [begin, hp, hw, hb, hf]
  rfl

include hm ho in
theorem failed_under (d : Depot) (hp : p.file = none) (e : SendError) :
    (w.under (.durable s retry)).failed (d.on fs) p 1 e = (w.failed d p 1 e).under (.durable s retry) fs := by
  have hv : w.handling.verdict? p 1 e = some (.failed e) := by rw [ho]; rfl
  simp only [failed, hv, show (w.under (.durable s retry)).handling = .durable s retry from rfl,
    verdict?_single hm hp]
  exact conclude_under hp _

include hm ho in
theorem send_under (d : Depot) (hp : p.file = none) :
    (w.under (.durable s retry)).send (d.on fs) p 1 = (w.send d p 1).under (.durable s retry) fs := by
  unfold send
  by_cases ha : w.aborted = true
  · rw [if_pos ha, if_pos (show (w.under (.durable s retry)).aborted = true from ha)]
    exact failed_under hm ho d hp _
  · rw [if_neg ha, if_neg (show ¬ (w.under (.durable s retry)).aborted = true from ha)]
    simp only [under_reportLosses, Depot.load_on]
    split
    · exact conclude_under hp _
    · rfl

include hs ho in
theorem abandon_under (d : Depot) (retry : RetryPolicy) (hp : p.file = none) :
    ∃ s', s.Like s' ∧
      (w.under (.durable s retry)).abandon (d.on fs) p = (w.abandon d p).under (.durable s' retry) fs := by
  obtain ⟨r, s', hw, hl, -, ha⟩ := spill_under hs w d retry p.envelope
  refine ⟨s', hl, ?_⟩
  have hf : (w.under (.durable s retry)).forsake (d.on fs) p =
      (.abandoned .sendError, w.under (.durable s' retry), d.on fs) := by
    rw [← ha]
    simp only [forsake, show (w.under (.durable s retry)).handling = .durable s retry from rfl, hp, hw]
  have hb : w.forsake d p = (.abandoned .sendError, w, d) := by simp only [forsake, ho]
  simp only [abandon, hf, hb, release_under, settle_on hp]
  rfl

include ho in
theorem stop_under (d : Depot) (s : SpillDir) (retry : RetryPolicy) (fs : Storage) :
    ∃ s' fs', s.Like s' ∧
      (w.under (.durable s retry)).stop (d.on fs) = (w.stop d).under (.durable s' retry) fs' := by
  refine ⟨{ s with claim := (s.claim.dispose fs).1 }, (s.claim.dispose fs).2, ⟨rfl, rfl, rfl⟩, ?_⟩
  simp only [stop, ho]
  rfl

end

theorem Bare.hand (hb : w.Bare) (hh : w.hand? = some p) : p.file = none :=
  hb.files p (by simp [parcels, hh])

theorem Bare.step? (hb : w.Bare) (hs : s.Shut fs) (hm : retry.maxAttempts = 1) (d : Depot) :
    ∃ s' fs', s.Like s' ∧
      (w.under (.durable s retry)).step? (d.on fs) = (w.step? d).map (·.under (.durable s' retry) fs') := by
  have ho := hb.handling
  have hq : (w.under (.durable s retry)).position = w.position := rfl
  cases hp : w.position with
  | idle =>
    refine ⟨s, fs, .refl s, ?_⟩
    simp only [Worker.step?, hq, hp, next?_under, Option.map_map]
    rfl
  | taken p =>
    obtain ⟨s', hl, hx⟩ := begin_under hs ho d retry (p := p) (hb.hand (by simp [hand?, hp]))
    refine ⟨s', fs, hl, ?_⟩
    simp only [Worker.step?, hq, hp, hx]
    rfl
  | due p n =>
    obtain rfl := hb.first n (by simp [attempt?, hp])
    refine ⟨s, fs, .refl s, ?_⟩
    simp only [Worker.step?, hq, hp, send_under hm ho d (hb.hand (p := p) (by simp [hand?, hp]))]
    rfl
  | sending p n out =>
    obtain rfl := hb.first n (by simp [attempt?, hp])
    refine ⟨s, fs, .refl s, ?_⟩
    simp only [Worker.step?, hq, hp, under_aborted, Depot.failed_on,
      failed_under hm ho _ (hb.hand (p := p) (by simp [hand?, hp]))]
    split <;> rfl
  | pausing p n => exact (not_pausing hb.toSendsOnce hp).elim
  | closing =>
    cases hw : w.queue with
    | nil =>
      -- only here the file system changes too: the directory is given up
      obtain ⟨s', fs', hl, hx⟩ := stop_under ho d s retry fs
      refine ⟨s', fs', hl, ?_⟩
      simp only [Worker.step?, hq, hp, under_queue, hw, hx]
      rfl
    | cons p rest =>
      have hf : p.file = none := hb.files p (by simp [parcels, hw])
      obtain ⟨s', hl, hx⟩ := abandon_under (w := { w with queue := rest }) hs ho d retry hf
      refine ⟨s', fs, hl, ?_⟩
      rw [hp] at hx
      simp only [Worker.step?, hq, hp, under_queue, hw]
      exact congrArg some hx
  | stopped =>
    refine ⟨s, fs, .refl s, ?_⟩
    simp only [Worker.step?, hq, hp]
    rfl

/-! ## What others do to it -/

theorem enqueue_under (w : Worker) (h : Handling) (d : Depot) (fs : Storage) (e : Envelope) :
    (w.under h).enqueue (d.on fs) e =
      ((w.enqueue d e).1, (w.enqueue d e).2.1.under h, (w.enqueue d e).2.2.on fs) := by
  unfold enqueue
  simp only [under_phase, under_queued, under_capacity]
  by_cases hs : w.phase = .running
  · by_cases he : e.isEmpty = true
    · simp only [hs, he]
      rfl
    · by_cases hq : w.queued < w.capacity <;> simp only [hs, he, hq] <;> rfl
  · simp only [ne_eq, hs, not_false_eq_true, if_true]

theorem beginShutdown_under (w : Worker) (h : Handling) :
    (w.under h).beginShutdown = (w.beginShutdown.1, w.beginShutdown.2.under h) := by
  by_cases hs : w.phase = .running
  · rw [beginShutdown_of_running hs, beginShutdown_of_running (w := w.under h) hs]
    rfl
  · rw [beginShutdown_of_not_running hs, beginShutdown_of_not_running (w := w.under h) hs]

theorem letGo_under (w : Worker) (h : Handling) (timed : Bool) : (w.under h).letGo timed = (w.letGo timed).under h := by
  unfold letGo
  rw [beginShutdown_under]
  rcases w.beginShutdown with ⟨_ | _, v⟩
  · rfl
  · by_cases ht : (timed && v.shutdownTimeout ≠ .zero) = true
    · simp only [if_pos ht]
      exact if_pos ht
    · simp only [if_neg ht]
      exact if_neg ht

theorem unlessLate_under (now deadline : Nat) (w : Worker) (h : Handling) (x : Wait) :
    Wait.unlessLate now deadline (w.under h) x =
      ((Wait.unlessLate now deadline w x).1.under h, (Wait.unlessLate now deadline w x).2) := by
  unfold Wait.unlessLate
  split <;> rfl

theorem pollStopped_under (now : Nat) (w : Worker) (h : Handling) (deadline : Nat) :
    Wait.pollStopped now (w.under h) deadline =
      ((Wait.pollStopped now w deadline).1.under h, (Wait.pollStopped now w deadline).2) := by
  unfold Wait.pollStopped
  by_cases hs : w.phase = .stopped
  · rw [if_pos hs, if_pos (show (w.under h).phase = .stopped from hs)]
  · rw [if_neg hs, if_neg (show (w.under h).phase ≠ .stopped from hs), unlessLate_under]

theorem report_under (now deadline : Nat) (w : Worker) (h : Handling) (d : Depot) (fs : Storage) :
    Wait.report now deadline (w.under h) (d.on fs) =
      ((Wait.report now deadline w d).1.under h, (Wait.report now deadline w d).2) := by
  unfold Wait.report
  rw [show (w.under h).reportLosses = w.reportLosses from rfl,
    show (d.on fs).ledger.pendingTotal = d.ledger.pendingTotal from rfl]
  cases w.reportLosses with
  | false => rfl
  | true =>
    rcases d.ledger.pendingTotal with _ | n
    · rfl
    · simp only [Bool.not_true, if_neg (show ¬ false = true from nofun)]
      by_cases hn : n = 0
      · rw [if_pos hn, if_pos hn]
      · rw [if_neg hn, if_neg hn]
        unfold pushReport
        cases hc : w.isClosed with
        | true =>
          rw [show (w.under h).isClosed = true from hc]
          rfl
        | false =>
          rw [show (w.under h).isClosed = false from hc]
          exact unlessLate_under now deadline (w.pushUnreserved {} none) h _

theorem pollProcessed_under (now : Nat) (w : Worker) (h : Handling) (d : Depot) (fs : Storage)
    (target deadline : Nat) (reported : Bool) :
    Wait.pollProcessed now (w.under h) (d.on fs) target deadline reported =
      ((Wait.pollProcessed now w d target deadline reported).1.under h,
        (Wait.pollProcessed now w d target deadline reported).2) := by
  unfold Wait.pollProcessed
  by_cases ht : target ≤ w.processed
  · rw [if_pos ht, if_pos (show target ≤ (w.under h).processed from ht)]
    cases reported with
    | true => rfl
    | false => exact report_under now deadline w h d fs
  · rw [if_neg ht, if_neg (show ¬ target ≤ (w.under h).processed from ht)]
    exact unlessLate_under now deadline w h _

theorem poll_under (now : Nat) (w : Worker) (h : Handling) (d : Depot) (fs : Storage) (x : Wait) :
    x.poll now (w.under h) (d.on fs) = ((x.poll now w d).1.under h, (x.poll now w d).2) := by
  cases x with
  | begun e =>
    cases e with
    | flush t =>
      by_cases hs : w.phase = .running
      · simp only [Wait.poll, under_phase, under_accepted, hs, ne_eq, not_true_eq_false, if_false]
        exact pollProcessed_under now w h d fs _ _ _
      · simp only [Wait.poll, under_phase, hs, ne_eq, not_false_eq_true, if_true]
    | shutdown =>
      simp only [Wait.poll, beginShutdown_under, under_shutdownTimeout]
      split
      · rfl
      · split <;> rfl
    | stopped t => exact pollStopped_under now w h _
  | processed target deadline reported => exact pollProcessed_under now w h d fs _ _ _
  | draining deadline =>
    by_cases hs : w.phase = .stopped
    · simp only [Wait.poll, under_phase, hs, if_true]
    · simp only [Wait.poll, under_phase, hs, if_false]
      split <;> rfl
  | givingUp => rfl
  | stopped deadline => exact pollStopped_under now w h _
  | done r => rfl
  | broken => rfl

theorem answered_under (hb : w.Bare) (hm : retry.maxAttempts = 1) (d : Depot) (s : SpillDir) (fs : Storage)
    (r : Except SendError Unit) :
    (w.under (.durable s retry)).answered (d.on fs) r = (w.answered d r).under (.durable s retry) fs := by
  have hq : (w.under (.durable s retry)).position = w.position := rfl
  cases hp : w.position with
  | sending p n out =>
    obtain rfl := hb.first n (by simp [attempt?, hp])
    have hf : p.file = none := hb.hand (by simp [hand?, hp])
    cases r with
    | ok u =>
      simp only [answered, hq, hp]
      exact conclude_under hf _
    | error e =>
      simp only [answered, hq, hp, Depot.failed_on]
      exact failed_under hm hb.handling _ hf e
  | _ =>
    simp only [answered, hq, hp]
    rfl

end Worker

namespace Desk

variable {k k' : Desk} {d d' : Depot} {s : SpillDir} {retry : RetryPolicy} {fs : Storage} {a : Act}

theorem act?_under (hb : k.worker.Bare) (hs : s.Shut fs) (hm : retry.maxAttempts = 1) (d : Depot) (a : Act) :
    ∃ s' fs', s.Like s' ∧ (k.under (.durable s retry)).act? (d.on fs) a =
      (k.act? d a).map fun x => (x.1.under (.durable s' retry), x.2.on fs') := by
  have hw : (k.under (.durable s retry)).worker = k.worker.under (.durable s retry) := rfl
  -- only a step of the worker itself touches its directory
  cases a with
  | step =>
    obtain ⟨s', fs', hl, hx⟩ := hb.step? hs hm d
    refine ⟨s', fs', hl, ?_⟩
    simp only [act?, hw, hx, Option.map_map]
    rfl
  | answer r =>
    refine ⟨s, fs, .refl s, ?_⟩
    simp only [act?, hw, Worker.answered_under hb hm, Worker.under_aborted,
      show (k.worker.under (.durable s retry)).sending? = k.worker.sending? from rfl]
    cases k.worker.sending? with
    | none => rfl
    | some y => by_cases ha : k.worker.aborted = true <;> simp only [ha, if_true] <;> rfl
  | resume =>
    refine ⟨s, fs, .refl s, ?_⟩
    simp only [act?, hw, hb.awake, show (k.worker.under (.durable s retry)).isPausing = k.worker.isPausing from rfl]
    rfl
  | offer e reason? =>
    refine ⟨s, fs, .refl s, ?_⟩
    simp only [act?, offered, hw, Worker.enqueue_under, Option.map_some]
    rcases k.worker.enqueue d e with ⟨r, w, d'⟩
    rcases r with er | b
    · cases reason? <;> rfl
    · cases b <;> cases reason? <;> rfl
  | call e => exact ⟨s, fs, .refl s, rfl⟩
  | look m now =>
    refine ⟨s, fs, .refl s, ?_⟩
    simp only [act?, hw, Worker.poll_under, show (k.under (.durable s retry)).waits = k.waits from rfl]
    cases k.waits[m]? <;> rfl

theorem happens?_under (hb : k.worker.Bare) (hs : s.Shut fs) (hm : retry.maxAttempts = 1) (d : Depot) (a : Happening) :
    ∃ s' fs', s.Like s' ∧ (k.under (.durable s retry)).happens? (d.on fs) a =
      (k.happens? d a).map fun x => (x.1.under (.durable s' retry), x.2.on fs') := by
  cases a with
  | act a => exact act?_under hb hs hm d a
  | drop timed =>
    refine ⟨s, fs, .refl s, ?_⟩
    simp only [happens?, show (k.under (.durable s retry)).worker = k.worker.under (.durable s retry) from rfl,
      Worker.letGo_under]
    rfl
  | timeUp =>
    refine ⟨s, fs, .refl s, ?_⟩
    by_cases hr : k.worker.phase = .running
    · simp only [happens?, if_pos hr]
      exact if_pos hr
    · simp only [happens?, if_neg hr]
      exact if_neg hr

theorem occurs?_under (hb : k.worker.Bare) (hs : s.Shut fs) (hm : retry.maxAttempts = 1) (d : Depot) (o : Occurrence) :
    ∃ s' fs', s.Like s' ∧ (k.under (.durable s retry)).occurs? (d.on fs) o =
      (k.occurs? d o).map fun x => (x.1.under (.durable s' retry), x.2.on fs') := by
  cases o with
  | here a => exact happens?_under hb hs hm d a
  | elsewhere ledger clock monitor storage => exact ⟨s, storage fs, .refl s, rfl⟩

end Desk

/-! ## Staying bare -/

namespace Worker

variable {w w' : Worker} {d : Depot} {p : Parcel} {x : Stride}

theorem Bare.of_unsent (ho : w.SendsOnce) (hf : ∀ p ∈ w.parcels, p.file = none) (ha : w.attempt? = none) : w.Bare :=
  ⟨ho, hf, fun n hn => by simp [ha] at hn⟩

theorem Bare.conclude (hb : w.Bare) (d : Depot) (p : Parcel) (f : Fate) : (w.conclude d p f).worker.Bare := by
  refine .of_unsent (conclude_sendsOnce hb.toSendsOnce f) (fun q hq => ?_) rfl
  rw [conclude_parcels] at hq
  exact hb.files q (List.mem_append_right _ hq)

theorem Bare.begin (hb : w.Bare) (hp : w.position = .taken p) (d : Depot) : (w.begin d p).worker.Bare := by
  have hf : p.file = none := hb.hand (by simp [hand?, hp])
  have hw : w.begin d p = ⟨{ w with position := .due { p with file := none } 1 }, d, none⟩ := by
    simp only [Worker.begin, hf, spill, hb.handling]
    rfl
  rw [hw]
  refine ⟨⟨hb.handling, rfl⟩, fun q hq => ?_, fun n hn => (Option.some.inj hn).symm⟩
  rw [parcels_of_hand rfl] at hq
  rcases List.mem_cons.mp hq with rfl | hq
  · rfl
  · exact hb.files q (List.mem_append_right _ hq)

theorem Move.bare (hm : w.Move d x) (hb : w.Bare) : x.worker.Bare := by
  have ho := hm.sendsOnce hb.toSendsOnce
  cases hm with
  | close hp =>
    refine .of_unsent ho (fun q hq => hb.files q ?_) rfl
    simpa [parcels, hand?, hp] using hq
  | take hp hq =>
    refine .of_unsent ho (fun q hm => hb.files q ?_) rfl
    simpa [parcels, hand?, hp, hq] using hm
  | begin hp => exact hb.begin hp d
  | hand hp =>
    refine ⟨ho, fun q hq => hb.files q ?_, fun n hn => hb.first n ?_⟩
    · simpa [parcels, hand?, hp] using hq
    · simpa [attempt?, hp] using hn
  | blank => exact hb.conclude ..
  | pause hp hv =>
    rw [verdict?_sendsOnce hb.toSendsOnce] at hv
    cases hv
  | fail => exact hb.conclude ..
  | yield => exact hb.conclude ..
  | @abandon p rest hp hq =>
    have hps : ({ w with queue := rest }.abandon d p).worker.parcels = rest := abandon_parcels hp
    refine .of_unsent ho (fun q hm => hb.files q ?_) (by simp [attempt?, abandon_position, hp])
    rw [hps] at hm
    simp [parcels, hq, hm]
  | stop hp hq =>
    refine .of_unsent ho (fun q hm => ?_) (by simp [attempt?, stop_position])
    rw [stop_parcels hq] at hm
    cases hm

theorem Polled.bare (hw : w.Polled w') (hb : w.Bare) : w'.Bare := by
  refine ⟨(hw.sendsOnce hb.toSendsOnce).1, fun q hq => ?_, ?_⟩
  · rcases hw.parcels with hp | hp
    · exact hb.files q (hp ▸ hq)
    · rcases List.mem_append.mp (hp ▸ hq) with hq | hq
      · exact hb.files q hq
      · rw [List.mem_singleton.mp hq]
  · cases hw <;> exact hb.first

end Worker

namespace Desk

variable {k k' : Desk} {d d' : Depot} {s : SpillDir} {retry : RetryPolicy} {fs : Storage}

theorem Change.bare (hc : k.Change d k' d') (hb : k.worker.Bare) : k'.worker.Bare := by
  cases hc with
  | step hm => exact hm.bare hb
  | error hp e => exact (Worker.answered_move hp e).bare hb
  | arrive => exact hb.conclude d _ .delivered
  | resume hp => exact (Worker.not_pausing hb.toSendsOnce hp).elim
  | accept =>
    refine ⟨⟨hb.handling, hb.awake⟩, fun q hq => ?_, hb.first⟩
    rcases List.mem_append.mp (Worker.pushReserved_parcels _ ▸ hq) with hq | hq
    · exact hb.files q hq
    · rw [List.mem_singleton.mp hq]
  | refuse => exact hb
  | polled waits hw => exact hw.bare hb

theorem occurs?_bare {o : Occurrence} (hb : k.worker.Bare) (h : k.occurs? d o = some (k', d')) : k'.worker.Bare := by
  cases o with
  | here a => exact (happens?_change h).bare hb
  | elsewhere => cases h; exact hb

/-! ## The same views -/

theorem view_under (k : Desk) (d : Depot) (h : Handling) (fs : Storage) : (k.under h).view (d.on fs) = k.view d := by
  simp only [view, Desk.under, Worker.enqueue_under]
  rfl

/-- What is written gets nowhere, before all this happens and whenever a part of it has happened. -/
def ShutThroughout (k : Desk) (d : Depot) (s : SpillDir) (os : List Occurrence) : Prop :=
  s.enabled = false ∨ ∀ pre k' d', pre <+: os → k.after? d pre = some (k', d') →
    d'.storage.Refuses s.dir s.capacity.toNat

theorem ShutThroughout.head {os : List Occurrence} (h : k.ShutThroughout d s os) : s.Shut d.storage :=
  h.imp_right fun h => h [] k d List.nil_prefix rfl

theorem ShutThroughout.tail {o : Occurrence} {os : List Occurrence} {s' : SpillDir} (h : k.ShutThroughout d s (o :: os))
    (ho : k.occurs? d o = some (k', d')) (hl : s.Like s') : k'.ShutThroughout d' s' os := by
  unfold ShutThroughout
  rw [hl.enabled, hl.dir, hl.capacity]
  refine h.imp_right fun h pre k'' d'' hpre ha => h (o :: pre) k'' d'' ?_ ?_
  · exact (List.prefix_cons_inj o).mpr hpre
  · rw [after?, ho]
    exact ha

/-- From two desks that are alike, all that can happen at one can happen at the other, and looks the same. -/
theorem view_after?_under {os : List Occurrence} (hb : k.worker.Bare) (hm : retry.maxAttempts = 1)
    (hs : (k.under (.durable s retry)).ShutThroughout (d.on fs) s os) :
    ((k.under (.durable s retry)).after? (d.on fs) os).map (fun x => x.1.view x.2) =
      (k.after? d os).map (fun x => x.1.view x.2) := by
  induction os generalizing k d s fs with
  | nil => exact congrArg some (view_under ..)
  | cons o os ih =>
    have hshut : s.Shut fs := hs.head
    obtain ⟨s', fs', hl, ho⟩ := occurs?_under hb hshut hm d o
    rw [after?, after?, ho]
    cases hk : k.occurs? d o with
    | none => rfl
    | some x =>
      rw [hk] at ho
      exact ih (occurs?_bare hb hk) (hs.tail ho hl)

end Desk

/-! ## From the start -/

namespace Worker

variable {settings : Settings} {fs fs' : Storage} {w : Worker}

theorem ofSettings_bare (settings : Settings) : (ofSettings settings .once).Bare :=
  .of_unsent ⟨rfl, rfl⟩ (by simp [ofSettings, parcels, hand?]) rfl

/-- Whether the worker has its directory for itself. -/
def caching (w : Worker) : Bool := w.spillDir?.any (·.enabled)

theorem recover_nothing {s s' : SpillDir} {backlog : List (Envelope × Path)} (h : s.recover fs = (backlog, s', fs'))
    (hl : fs.files.list s.dir SpillDir.extension = []) : backlog = [] := by
  unfold SpillDir.recover Storage.list at h
  cases hd : fs.refusal? .list with
  | some e =>
    simp only [hd] at h
    cases h
    rfl
  | none =>
    simp only [hd, hl, SpillDir.loadAll] at h
    cases h
    rfl

/-- A worker with an empty directory, or without one, starts as one that sends every envelope once. -/
theorem startDurable_under (h : startDurable settings fs = (.ok w, fs'))
    (he : w.caching = false ∨ ∀ dir, settings.cacheDir = some dir → fs.files.list ⟨dir⟩ SpillDir.extension = []) :
    ∃ s, w = (ofSettings settings .once).under (.durable s settings.retry) := by
  cases startDurable_started h with
  | guest hd ha => exact ⟨_, rfl⟩
  | @owner dir claim fs₁ backlog spill _ hd ha hr =>
    obtain ⟨rfl, -, -, hfiles, -⟩ := DirClaim.acquire_true ha
    have hon : spill.enabled = true := (recover_claim hr).2
    obtain he | he := he
    · simp [caching, spillDir?, withBacklog_eq, ofSettings, hon] at he
    · have hl : fs₁.files.list ⟨dir⟩ SpillDir.extension = [] := by
        rw [← he dir hd, MemoryFiles.list, MemoryFiles.list, hfiles]
      obtain rfl := recover_nothing hr hl
      exact ⟨spill, rfl⟩

end Worker

namespace Desk

variable {settings : Settings} {d : Depot} {w w' : Worker} {fs : Storage}

/-- A worker that may send but once and has no directory, or has an empty one into which nothing can be written, does
what a worker does that sends every envelope once: whatever happens, it happens to both, and leaves both looking the
same to whoever uses them, to the transport and in the ledger. -/
theorem view_startDurable (hm : settings.retry.maxAttempts = 1) (hw : Worker.start settings = .ok w)
    (hw' : Worker.startDurable settings d.storage = (.ok w', fs)) (os : List Occurrence)
    (hs : w'.caching = false ∨
      (∀ dir, settings.cacheDir = some dir → d.storage.files.list ⟨dir⟩ SpillDir.extension = []) ∧
      ∀ s pre k' d', w'.spillDir? = some s → pre <+: os → (opened w').after? (d.on fs) pre = some (k', d') →
        d'.storage.Refuses s.dir s.capacity.toNat) :
    ((opened w').after? (d.on fs) os).map (fun x => x.1.view x.2) =
      ((opened w).after? d os).map (fun x => x.1.view x.2) := by
  obtain ⟨s, rfl⟩ := Worker.startDurable_under hw' (hs.imp_right And.left)
  rw [Worker.start_eq hw]
  refine view_after?_under (k := opened (Worker.ofSettings settings .once)) (Worker.ofSettings_bare settings) hm ?_
  obtain hs | ⟨-, hs⟩ := hs
  · exact .inl (by simpa [Worker.caching, Worker.spillDir?, Worker.under] using hs)
  · exact .inr fun pre k' d' => hs s pre k' d' rfl

/-- One send each, and a directory to keep envelopes in until then. -/
def singleSend : Settings :=
  { Settings.standard with cacheDir := some "cache", retry := { RetryPolicy.standard with maxAttempts := 1 } }

/-- No write gets through. -/
def brokenDepot : Depot := { storage := { files := { failWrites := true } } }

/-- The send of the first envelope fails, and the second one is given away after a report was begun. -/
def brokenRun : List Occurrence :=
  [.here (.act (.offer (.ofEvent "a" (.str "")) none)), .here (.act (.call (.flush (.ofSeconds 1)))),
    .here (.act (.look 0 0)), .here (.act (.offer (.ofEvent "b" (.str "")) none)), .here (.act .step),
    .here (.act .step), .elsewhere id ⟨.zero⟩ id id, .here (.act .step),
    .here (.act (.answer (.error (.transient "")))), .here (.act (.look 0 1)), .here (.drop false), .here (.act .step),
    .here (.act .step), .here (.act .step), .here (.act .step)]

theorem view_startDurable_brokenRun :
    ∃ w w' fs, Worker.start singleSend = .ok w ∧
      Worker.startDurable singleSend brokenDepot.storage = (.ok w', fs) ∧ w'.caching = true ∧
      (((opened w').after? (brokenDepot.on fs) brokenRun).map fun x => (x.1.worker.phase, x.1.handed.length,
        x.1.settled.length)) = some (.stopped, 1, 3) ∧
      ((opened w').after? (brokenDepot.on fs) brokenRun).map (fun x => x.1.view x.2) =
        ((opened w).after? brokenDepot brokenRun).map (fun x => x.1.view x.2) := by
  have hrun : ((Worker.startDurable singleSend brokenDepot.storage).1.toOption.map fun w' =>
      let d := brokenDepot.on (Worker.startDurable singleSend brokenDepot.storage).2
      (w'.caching,
        ((opened w').after? d brokenRun).map fun x => (x.1.worker.phase, x.1.handed.length, x.1.settled.length),
        w'.spillDir?.all fun s => (List.range (brokenRun.length + 1)).all fun n =>
          ((opened w').after? d (brokenRun.take n)).all fun x => x.2.storage.files.failWrites &&
            (x.2.storage.files.list s.dir SpillDir.extension).length < s.capacity.toNat)) =
      some (true, some (.stopped, 1, 3), true) := by decide +kernel
  have hw : (Worker.start singleSend).isOk = true := by decide +kernel
  cases hstart : Worker.start singleSend with
  | error e => simp [hstart, Except.isOk, Except.toBool] at hw
  | ok w =>
    rcases hw' : Worker.startDurable singleSend brokenDepot.storage with ⟨e | w', fs⟩
    · simp [hw', Except.toOption] at hrun
    · simp only [hw', Except.toOption, Option.map_some, Option.some.injEq, Prod.mk.injEq] at hrun
      obtain ⟨hcaching, hends, hall⟩ := hrun
      refine ⟨w, w', fs, rfl, rfl, hcaching, hends, view_startDurable rfl hstart hw' brokenRun (.inr ⟨?_, ?_⟩)⟩
      · exact fun dir _ => rfl
      · intro s pre k' d' hs hpre hk
        rw [hs, Option.all_some, List.all_eq_true] at hall
        have hfail := hall pre.length (List.mem_range.mpr (Nat.lt_succ_of_le hpre.length_le))
        rw [← List.prefix_iff_eq_take.mp hpre, hk, Option.all_some, Bool.and_eq_true, decide_eq_true_eq] at hfail
        exact Storage.refuses_of_failWrites hfail.1 hfail.2

end Desk

end Courier

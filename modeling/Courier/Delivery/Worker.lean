import Courier.Delivery.Depot
import Courier.Delivery.Error
import Courier.Delivery.SpillDir
import Courier.Settings.Basic

/-!
# Workers

A worker takes envelopes from a bounded queue, one at a time and first come first served, and hands them to
a transport. It is a machine that goes on step by step until it has to wait: for an envelope, for the
transport, or for a pause to be over.

A shutdown lets it drain the queue. Once it is told to give up, it sends nothing more and gives away what is
left. A worker of the durable kind keeps every envelope in a file until it is delivered or lost for good, and
sends again after a transient failure.
-/

namespace Courier

/-- An envelope in the queue. -/
structure Parcel where
  envelope : Envelope
  /-- The file that it stands in already. -/
  file : Option Path := none
  /-- Whether it takes one of the places that producers may fill. -/
  reserved : Bool
  deriving Inhabited

/-- What became of an envelope. -/
inductive Fate
  | delivered
  /-- No send of it got through, and it is not made again. -/
  | failed (e : SendError)
  /-- It was given away without a send. -/
  | abandoned (reason : LossReason)
  /-- It waits in its file for the next start. -/
  | kept (file : Path)
  deriving DecidableEq, Repr, Inhabited

def Fate.lossReason? : Fate → Option LossReason
  | delivered => none
  | failed e => some e.lossReason
  | abandoned reason => some reason
  | kept _ => none

/-- What becomes of an envelope whose send is given up: one in a file waits there. -/
def Parcel.interrupted (p : Parcel) : Fate :=
  match p.file with
  | some file => .kept file
  | none => .failed .cancelled

/-- What becomes of an envelope that is not sent any more, when this became of its file. -/
def Spilled.fate : Spilled → Fate
  | written file => .kept file
  | full => .abandoned .cacheOverflow
  | disabled => .abandoned .sendError
  | failed => .abandoned .sendError

inductive Phase
  | running
  | shuttingDown
  | stopped
  deriving DecidableEq, Repr, Inhabited

/-- Where a worker is. -/
inductive Position
  /-- Between two envelopes. -/
  | idle
  /-- An envelope was taken and is not in a file yet. -/
  | taken (p : Parcel)
  /-- The send of this number comes next, counted from one. -/
  | due (p : Parcel) (attempt : UInt32)
  /-- The transport has it. -/
  | sending (p : Parcel) (attempt : UInt32) (out : Outbound)
  /-- The send of this number failed and is made again after a pause. -/
  | pausing (p : Parcel) (attempt : UInt32)
  /-- Nothing more is sent. -/
  | closing
  | stopped
  deriving Inhabited

/-- What is done with each envelope. -/
inductive Handling
  /-- It is sent once. -/
  | once
  /-- It is kept in a file, and sent again after a transient failure. -/
  | durable (spill : SpillDir) (retry : RetryPolicy)
  deriving Inhabited

/-- What becomes of an envelope when the send of this number fails; `none` if another one follows. -/
def Handling.verdict? (h : Handling) (p : Parcel) (attempt : UInt32) (e : SendError) : Option Fate :=
  match h with
  | .once => some (.failed e)
  | .durable _ retry =>
    match e with
    -- a send that was cut short says nothing about the envelope
    | .cancelled => some p.interrupted
    | e => if e.isTransient && retry.allows attempt then none else some (.failed e)

structure Worker where
  /-- How many places producers may fill. -/
  capacity : Nat
  reportLosses : Bool
  shutdownTimeout : Duration
  flushTimeout : Duration
  handling : Handling
  phase : Phase := .running
  /-- Whether the worker was told to give up. -/
  aborted : Bool := false
  queue : List Parcel := []
  position : Position := .idle
  /-- Filled places, the envelope in hand included. -/
  queued : Nat := 0
  /-- What is queued or in hand without a place. -/
  unreserved : Nat := 0
  /-- How many parcels were ever put into the queue, and how many are done with. -/
  accepted : Nat := 0
  processed : Nat := 0
  deriving Inhabited

/-- A worker and what workers share after a step, and the envelope that the step was the last one for. -/
structure Stride where
  worker : Worker
  depot : Depot
  settled : Option (Parcel × Fate)

namespace Worker

/-! ## The queue -/

def queuedCount (w : Worker) : Nat := w.queued + w.unreserved

def isClosed (w : Worker) : Bool :=
  match w.position with
  | .closing | .stopped => true
  | _ => false

/-- Puts a parcel without a place into the queue. -/
def pushUnreserved (w : Worker) (e : Envelope) (file : Option Path) : Worker :=
  { w with
    queue := w.queue ++ [⟨e, file, false⟩]
    unreserved := w.unreserved + 1
    accepted := w.accepted + 1 }

/-- Fills a place. -/
def pushReserved (w : Worker) (e : Envelope) : Worker :=
  { w with
    queue := w.queue ++ [⟨e, none, true⟩]
    queued := w.queued + 1
    accepted := w.accepted + 1 }

/-- Whether an envelope was taken into the queue. One without items is not, and none is when all places are
filled. -/
def enqueue (w : Worker) (d : Depot) (e : Envelope) :
    Except DeliveryError Bool × Worker × Depot :=
  if w.phase ≠ .running then (.error .disposed, w, d)
  else if e.isEmpty then (.ok false, w, d)
  else if w.queued < w.capacity then (.ok true, w.pushReserved e, d)
  else (.ok false, w, d.noteOverflow)

/-- Takes an envelope over; what does not get into the queue is counted as lost. -/
def capture (w : Worker) (d : Depot) (e : Envelope) : Worker × Depot :=
  match w.enqueue d e with
  | (.ok true, w, d) => (w, d)
  | (_, w, d) => (w, d.account .queueOverflow e)

/-- Puts an empty envelope into the queue, for a report to ride along; how many parcels there have been
then. A closed queue takes nothing. -/
def pushReport (w : Worker) : Option Nat × Worker :=
  if w.isClosed then (none, w)
  else
    let w := w.pushUnreserved {} none
    (some w.accepted, w)

def release (w : Worker) (p : Parcel) : Worker :=
  if p.reserved then { w with queued := w.queued - 1, processed := w.processed + 1 }
  else { w with unreserved := w.unreserved - 1, processed := w.processed + 1 }

def finish (w : Worker) (p : Parcel) : Worker := { w.release p with position := .idle }

/-! ## Handling an envelope -/

/-- Puts the envelope into a file if it is to be kept. -/
def spill (w : Worker) (d : Depot) (e : Envelope) : Spilled × Worker × Depot :=
  match w.handling with
  | .once => (.disabled, w, d)
  | .durable s retry =>
    let (r, s, storage) := s.write d.storage d.clock.now e
    (r, { w with handling := .durable s retry }, { d with storage := storage })

/-- An envelope in hand gets its file, unless it has one. -/
def begin (w : Worker) (d : Depot) (p : Parcel) : Stride :=
  match p.file with
  | some _ => ⟨{ w with position := .due p 1 }, d, none⟩
  | none =>
    let (r, w, d) := w.spill d p.envelope
    ⟨{ w with position := .due { p with file := r.file? } 1 }, d, none⟩

def discardFile (d : Depot) (p : Parcel) : Depot :=
  { d with storage := SpillDir.remove d.storage p.file }

/-- Counts an envelope that is lost, and removes the file of one that is done with. -/
def settle (d : Depot) (p : Parcel) : Fate → Depot
  | .delivered => discardFile d p
  | .failed e => discardFile (d.account e.lossReason p.envelope) p
  | .abandoned reason => d.account reason p.envelope
  | .kept _ => d

def conclude (w : Worker) (d : Depot) (p : Parcel) (f : Fate) : Stride :=
  ⟨w.finish p, settle d p f, some (p, f)⟩

def failed (w : Worker) (d : Depot) (p : Parcel) (attempt : UInt32) (e : SendError) : Stride :=
  match w.handling.verdict? p attempt e with
  | some f => w.conclude d p f
  | none => ⟨{ w with position := .pausing p attempt }, d, none⟩

/-- Hands the envelope to the transport, with a report if there are losses. There may be nothing to send. -/
def send (w : Worker) (d : Depot) (p : Parcel) (attempt : UInt32) : Stride :=
  if w.aborted then w.failed d p attempt .cancelled
  else
    let (out, d) := d.load w.reportLosses p.envelope
    -- an envelope that was to carry a report, and there is none any more
    if out.envelope.isEmpty then w.conclude d p .delivered
    else ⟨{ w with position := .sending p attempt out }, d, none⟩

def answered (w : Worker) (d : Depot) (r : Except SendError Unit) : Stride :=
  match w.position with
  | .sending p attempt out =>
    match r with
    | .ok _ => w.conclude d p .delivered
    | .error e => w.failed (d.failed out e) p attempt e
  | _ => ⟨w, d, none⟩

def resumed (w : Worker) : Worker :=
  match w.position with
  | .pausing p attempt => { w with position := .due p (attempt + 1) }
  | _ => w

/-! ## Stopping -/

/-- What becomes of an envelope that is not sent any more: it gets its file, if it is to have one. -/
def forsake (w : Worker) (d : Depot) (p : Parcel) : Fate × Worker × Depot :=
  match w.handling with
  | .once => (.abandoned .sendError, w, d)
  | .durable _ _ =>
    match p.file with
    | some file => (.kept file, w, d)
    | none =>
      let (r, w, d) := w.spill d p.envelope
      (r.fate, w, d)

/-- Gives away an envelope that is not sent any more. -/
def abandon (w : Worker) (d : Depot) (p : Parcel) : Stride :=
  let (f, w, d) := w.forsake d p
  ⟨w.release p, settle d p f, some (p, f)⟩

/-- Gives up the claim on the spill directory. -/
def stop (w : Worker) (d : Depot) : Stride :=
  match w.handling with
  | .once => ⟨{ w with phase := .stopped, position := .stopped }, d, none⟩
  | .durable s retry =>
    let (claim, storage) := s.claim.dispose d.storage
    ⟨{ w with
        phase := .stopped
        position := .stopped
        handling := .durable { s with claim := claim } retry },
      { d with storage := storage }, none⟩

/-- Begins the shutdown, unless it has begun; whether it was begun here. -/
def beginShutdown (w : Worker) : Bool × Worker :=
  if w.phase = .running then (true, { w with phase := .shuttingDown }) else (false, w)

def abort (w : Worker) : Worker := { w with aborted := true }

/-! ## Steps -/

/-- Takes the next envelope. -/
def next? (w : Worker) : Option Worker :=
  -- a shutdown is noticed first, and then an abort
  if w.phase ≠ .running ∧ w.aborted then some { w with position := .closing }
  else
    match w.queue with
    | p :: rest => some { w with queue := rest, position := .taken p }
    | [] => if w.phase = .running then none else some { w with position := .closing }

/-- The next step, `none` if the worker has to wait. -/
def step? (w : Worker) (d : Depot) : Option Stride :=
  match w.position with
  | .idle => w.next?.map (⟨·, d, none⟩)
  | .taken p => some (w.begin d p)
  | .due p attempt => some (w.send d p attempt)
  | .sending p attempt out =>
    if w.aborted then some (w.failed (d.failed out .cancelled) p attempt .cancelled) else none
  | .pausing p _ => if w.aborted then some (w.conclude d p p.interrupted) else none
  | .closing =>
    match w.queue with
    | p :: rest => some ({ w with queue := rest }.abandon d p)
    | [] => some (w.stop d)
  | .stopped => none

/-! ## Starting -/

def ofSettings (s : Settings) (handling : Handling) : Worker where
  capacity := s.queueCapacity.toNat
  reportLosses := s.reportLosses
  shutdownTimeout := s.shutdownTimeout
  flushTimeout := s.flushTimeout
  handling := handling

def start (s : Settings) : Except DeliveryError Worker :=
  match s.validate with
  | .error e => .error (.settings e)
  | .ok _ => .ok (ofSettings s .once)

def withBacklog (w : Worker) (backlog : List (Envelope × Path)) : Worker :=
  backlog.foldl (fun w b => w.pushUnreserved b.1 (some b.2)) w

/-- A worker that keeps envelopes in files. -/
def startDurable (s : Settings) (fs : Storage) : Except DeliveryError Worker × Storage :=
  match s.validate with
  | .error e => (.error (.settings e), fs)
  | .ok _ =>
    match s.cacheDir with
    | none => (.error (.settings .missingCacheDir), fs)
    | some dir =>
      match (({ dir := ⟨dir⟩ } : DirClaim Path)).acquire fs with
      | (.error e, _, fs) => (.error (.cache e), fs)
      | (.ok owned, claim, fs) =>
        -- where another worker has the directory, nothing is written and nothing is recovered
        let spill : SpillDir := { claim, enabled := owned, capacity := s.cacheCapacity }
        if owned then
          let (backlog, spill, fs) := spill.recover fs
          (.ok ((ofSettings s (.durable spill s.retry)).withBacklog backlog), fs)
        else (.ok (ofSettings s (.durable spill s.retry)), fs)

def spillDir? (w : Worker) : Option SpillDir :=
  match w.handling with
  | .once => none
  | .durable s _ => some s

end Worker

end Courier

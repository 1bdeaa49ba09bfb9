import Courier.Agenda
import Courier.Delivery.Worker

/-!
# Waiting for a worker

A caller waits until the worker is done with what it has, or until it has stopped. A wait is looked at again
whenever the worker has gone on or its deadline has passed. Times are virtual milliseconds.
-/

namespace Courier

/-- What a caller waits for. -/
inductive Errand
  /-- Until all that is queued is done with, and a report of losses after it. -/
  | flush (timeout : Duration)
  /-- Until the worker has drained its queue; it is told to give up when that takes too long. -/
  | shutdown
  /-- Until the worker has stopped. -/
  | stopped (timeout : Duration)
  deriving DecidableEq, Repr, Inhabited

inductive Wait
  | begun (e : Errand)
  /-- So many parcels are to be done with by the deadline; a report may come after them. -/
  | processed (target deadline : Nat) (reported : Bool)
  | draining (deadline : Nat)
  /-- The worker was told to give up. -/
  | givingUp
  | stopped (deadline : Nat)
  /-- Whether it went well, where that is asked. -/
  | done (r : Option Bool)
  /-- The losses did not add up to a word, and whoever waited was stopped there. -/
  | broken
  deriving DecidableEq, Repr, Inhabited

namespace Wait

def isDone : Wait → Bool
  | done _ | broken => true
  | _ => false

def deadline? : Wait → Option Nat
  | processed _ d _ => some d
  | draining d => some d
  | stopped d => some d
  | _ => none

/-- How long the wait goes on at most. -/
def patience (w : Worker) (now : Nat) : Wait → Nat
  | begun (.flush t) => t.ticks
  | begun .shutdown => w.shutdownTimeout.ticks
  | begun (.stopped t) => t.ticks
  | x => x.deadline?.getD now - now

/-- Goes on waiting, unless the deadline has passed. -/
def unlessLate (now deadline : Nat) (w : Worker) (x : Wait) : Worker × Wait :=
  if deadline ≤ now then (w, done (some false)) else (w, x)

/-- What is queued is done with; now for the losses. -/
def report (now deadline : Nat) (w : Worker) (d : Depot) : Worker × Wait :=
  if !w.reportLosses then (w, done (some true))
  else
    match d.ledger.pendingTotal with
    | .error _ => (w, broken)
    | .ok n =>
      if n = 0 then (w, done (some true))
      else
        match w.pushReport with
        | (none, w) => (w, done (some true))
        | (some mark, w) => unlessLate now deadline w (processed mark deadline true)

def pollProcessed (now : Nat) (w : Worker) (d : Depot) (target deadline : Nat) (reported : Bool) :
    Worker × Wait :=
  if target ≤ w.processed then
    if reported then (w, done (some true)) else report now deadline w d
  else unlessLate now deadline w (processed target deadline reported)

def pollStopped (now : Nat) (w : Worker) (deadline : Nat) : Worker × Wait :=
  if w.phase = .stopped then (w, done (some true))
  else unlessLate now deadline w (stopped deadline)

def poll (now : Nat) (w : Worker) (d : Depot) : Wait → Worker × Wait
  | begun (.flush t) =>
    if w.phase ≠ .running then (w, done (some true))
    -- what is accepted from now on is not waited for
    else pollProcessed now w d w.accepted (now + t.ticks) false
  | begun .shutdown =>
    let (first, w) := w.beginShutdown
    -- only the first one to shut the worker down waits for it to drain
    if !first then (w, done none)
    else if w.shutdownTimeout = .zero then (w.abort, done none)
    else (w, draining (now + w.shutdownTimeout.ticks))
  | begun (.stopped t) => pollStopped now w (now + t.ticks)
  | processed target deadline reported => pollProcessed now w d target deadline reported
  | draining deadline =>
    if w.phase = .stopped then (w, done none)
    else if deadline ≤ now then (w.abort, givingUp)
    else (w, draining deadline)
  | givingUp => (w, if w.phase = .stopped then done none else givingUp)
  | stopped deadline => pollStopped now w deadline
  | done r => (w, done r)
  | broken => (w, broken)

end Wait

end Courier

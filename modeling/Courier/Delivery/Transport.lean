import Courier.Envelope.Basic
import Courier.Random

/-!
# Transports

A transport takes one envelope at a time. A send begins, takes a while, and ends with a delivery or an
error. `ScriptedTransport` fails as it was told to, `RandomTransport` by chance.
-/

namespace Courier

/-! ## Failures of a send -/

inductive SendError
  /-- The same envelope may get through later. -/
  | transient (message : String)
  /-- Sending again does not help. -/
  | rejected (status : UInt16) (message : String)
  | rateLimited (retryAfter : Duration)
  /-- The sender gave up waiting. -/
  | cancelled
  deriving DecidableEq, Repr, Inhabited

namespace SendError

def message : SendError → String
  | transient m => "transient transport failure: " ++ m
  | rejected status m => "envelope rejected with status " ++ toString status ++ ": " ++ m
  | rateLimited d => "rate limited, retry after " ++ d.text
  | cancelled => "send cancelled"

def isTransient : SendError → Bool
  | transient _ => true
  | _ => false

/-- What an envelope is counted as when this was its last failure. -/
def lossReason : SendError → LossReason
  | transient _ => .networkError
  | rateLimited _ => .ratelimitBackoff
  | rejected _ _ => .sendError
  | cancelled => .sendError

end SendError

/-! ## A script of failures -/

structure ScriptedTransport where
  delay : Option Duration := none
  /-- The failures of the next sends. -/
  script : List SendError := []
  attempts : Nat := 0
  delivered : List Envelope := []
  deriving Inhabited

namespace ScriptedTransport

def failNext (t : ScriptedTransport) (e : SendError) : ScriptedTransport :=
  { t with script := t.script ++ [e] }

/-- A send that is cancelled does not use up the script. -/
def finish (t : ScriptedTransport) (cancelled : Bool) (e : Envelope) :
    Except SendError Unit × ScriptedTransport :=
  if cancelled then (.error .cancelled, t)
  else
    match t.script with
    | failure :: rest => (.error failure, { t with script := rest })
    | [] => (.ok (), { t with delivered := t.delivered ++ [e] })

end ScriptedTransport

/-! ## Failures by chance -/

/-- How likely each failure is. -/
structure FailureOdds where
  transient : Float := 0.05
  rejected : Float := 0.01
  rateLimited : Float := 0.01
  deriving Inhabited

namespace FailureOdds

def reliable : FailureOdds := ⟨0.0, 0.0, 0.0⟩

def flaky : FailureOdds := ⟨0.3, 0.0, 0.0⟩

def chaotic : FailureOdds := ⟨0.25, 0.05, 0.05⟩

/-- The failure that a draw from the unit interval stands for: the odds lie side by side from zero on. -/
def failure? (o : FailureOdds) (draw : Float) : Option SendError :=
  if draw < o.transient then some (.transient "simulated connection reset")
  else if draw < o.transient + o.rejected then some (.rejected 400 "simulated rejection")
  else if draw < o.transient + o.rejected + o.rateLimited then
    some (.rateLimited (.ofSeconds 60))
  else none

end FailureOdds

structure SendStats where
  attempts : Nat := 0
  delivered : Nat := 0
  transient : Nat := 0
  rejected : Nat := 0
  rateLimited : Nat := 0
  deriving DecidableEq, Repr, Inhabited

namespace SendStats

def count (s : SendStats) : Option SendError → SendStats
  | none => { s with attempts := s.attempts + 1, delivered := s.delivered + 1 }
  | some (.transient _) => { s with attempts := s.attempts + 1, transient := s.transient + 1 }
  | some (.rejected _ _) => { s with attempts := s.attempts + 1, rejected := s.rejected + 1 }
  | some (.rateLimited _) => { s with attempts := s.attempts + 1, rateLimited := s.rateLimited + 1 }
  | some .cancelled => { s with attempts := s.attempts + 1 }

end SendStats

structure RandomTransport where
  odds : FailureOdds
  random : RandomStream
  stats : SendStats := {}
  delivered : List Envelope := []
  deriving Inhabited

namespace RandomTransport

def ofSeed (seed : UInt64) (odds : FailureOdds) : RandomTransport := { odds, random := .ofSeed seed }

/-- A send that is cancelled draws nothing and is not counted. -/
def finish (t : RandomTransport) (cancelled : Bool) (e : Envelope) :
    Except SendError Unit × RandomTransport :=
  if cancelled then (.error .cancelled, t)
  else
    let (draw, random) := t.random.unit
    let failure := t.odds.failure? draw
    let t := { t with random := random, stats := t.stats.count failure }
    match failure with
    | some f => (.error f, t)
    | none => (.ok (), { t with delivered := t.delivered ++ [e] })

/-- Sends envelopes one after the other; from the one with the number `cancelled` on, all are cancelled. -/
def finishAll (t : RandomTransport) (cancelled : Option Nat) :
    List Envelope → List (Except SendError Unit) × RandomTransport
  | [] => ([], t)
  | e :: rest =>
    let (r, t) := t.finish (cancelled == some 0) e
    let later := cancelled.map fun n => n - 1
    let (out, t) := t.finishAll later rest
    (r :: out, t)

end RandomTransport

/-! ## Both kinds -/

inductive Transport
  | scripted (t : ScriptedTransport)
  | random (t : RandomTransport)
  deriving Inhabited

namespace Transport

def start : Transport → Duration × Transport
  | scripted t => (t.delay.getD .zero, scripted { t with attempts := t.attempts + 1 })
  | random t => (.zero, random t)

/-- Ends a send. -/
def finish (t : Transport) (cancelled : Bool) (e : Envelope) : Except SendError Unit × Transport :=
  match t with
  | scripted t => let (r, t) := t.finish cancelled e; (r, scripted t)
  | random t => let (r, t) := t.finish cancelled e; (r, random t)

def attempts : Transport → Nat
  | scripted t => t.attempts
  | random t => t.stats.attempts

def stats : Transport → SendStats
  | scripted t => { attempts := t.attempts, delivered := t.delivered.length }
  | random t => t.stats

def delivered : Transport → List Envelope
  | scripted t => t.delivered
  | random t => t.delivered

end Transport

end Courier

import Courier.Batch.AlarmBoard
import Courier.Batch.Processor
import Courier.Loss.Ledger

/-!
# Sessions

A processor together with who takes its envelopes. The envelopes are kept, and the taker uses the processor
from inside: with the k-th envelope it runs the k-th script.
-/

namespace Courier

structure BatchSession where
  processor : Processor
  ledger : Ledger
  /-- The scripts of the envelopes to come. -/
  scripts : List (List BatchCommand) := []
  /-- Alarms on an agenda go off by themselves; without one they are fired by hand. -/
  agenda : Option AlarmAgenda := none
  /-- Whether the processor is gone. -/
  dropped : Bool := false
  envelopes : List Envelope := []
  /-- The replies to the commands of scripts, in the order in which they ended. -/
  replies : List BatchReply := []

namespace BatchSession

/-- Puts a processor back and keeps track of its alarms. -/
def setProcessor (s : BatchSession) (p : Processor) : BatchSession :=
  { s with
    processor := p
    agenda := s.agenda.map fun a => a.keepAll 0 p.alarms }

/-! ## Turns -/

/-- The commands that come with the next envelope; a processor that is gone gets none. -/
def nextScript (s : BatchSession) : List BatchCommand :=
  if s.dropped then [] else s.scripts.headD []

def capture (s : BatchSession) (e : Envelope) : BatchSession :=
  { s with envelopes := s.envelopes ++ [e], scripts := s.scripts.tail }

def noteReply (s : BatchSession) (r : BatchReply) : BatchSession :=
  { s with replies := s.replies ++ [r] }

/-- Goes on to the end of a turn and of all that comes in between. -/
def go : Nat → BatchSession → Processor.Step → BatchSession × BatchReply
  | _, s, .reply p r => (s.setProcessor p, r)
  | 0, s, .emit _ p _ => (s.setProcessor p, .done)
  | fuel + 1, s, .emit (.loss l n) p next =>
    let s := { s.setProcessor p with ledger := s.ledger.record l n }
    go fuel s (s.processor.resume next)
  | fuel + 1, s, .emit (.envelope e) p next =>
    let s := s.setProcessor p
    let script := s.nextScript
    let s := script.foldl
      (fun s c =>
        let (s, r) := go fuel s (s.processor.start c)
        s.noteReply r)
      (s.capture e)
    go fuel s (s.processor.resume next)

/-- Every emission takes an item with it that waited or came in by a command. -/
def fuel (s : BatchSession) : Nat :=
  s.processor.pending + (s.scripts.map List.length).sum + 2

def run (s : BatchSession) (c : BatchCommand) : BatchSession × BatchReply :=
  go s.fuel s (s.processor.start c)

/-! ## Alarms -/

/-- Lets an alarm go off; whether it was armed, and `none` if there is no such alarm. Nothing follows when
the processor is gone. -/
def ring (s : BatchSession) (i : Nat) : Option Bool × BatchSession :=
  match s.processor.alarms[i]? with
  | none => (none, s)
  | some alarm =>
    if alarm.isArmed then
      let s := s.setProcessor (s.processor.disarm i)
      if s.dropped then (some true, s)
      else (some true, (go s.fuel s (s.processor.timeout i)).1)
    else (some false, s)

def fire (s : BatchSession) (i : Nat) : Option Bool × BatchSession :=
  if s.agenda.isSome then (none, s) else s.ring i

def fireAll (s : BatchSession) : Nat × BatchSession :=
  (List.range s.processor.alarms.length).foldl
    (fun (n, s) i =>
      let (r, s) := s.fire i
      (if r == some true then n + 1 else n, s))
    (0, s)

def disarm (s : BatchSession) (i : Nat) : BatchSession :=
  if s.agenda.isSome then s else s.setProcessor (s.processor.disarm i)

/-- Lets alarms go off up to and with `until`. -/
def pass : Nat → Nat → BatchSession → BatchSession
  | 0, _, s => s
  | fuel + 1, until_, s =>
    match s.agenda.bind (·.popBy until_) with
    | none => s
    | some ((i, _), a) => pass fuel until_ ({ s with agenda := some a }.ring i).2

def sleep (s : BatchSession) (ticks : Nat) : BatchSession :=
  match s.agenda with
  | none => s
  | some a =>
    let s := pass (a.entries.length + s.fuel) (a.now + ticks) s
    { s with agenda := s.agenda.map fun b => { b with now := a.now + ticks } }

/-- Drops the processor, which sends what it holds. Alarms that go off by themselves go with it. -/
def drop (s : BatchSession) : BatchSession :=
  if s.dropped then s
  else
    let s := { s with dropped := true }
    let s := (go s.fuel s (s.processor.start .dispose)).1
    { s with agenda := s.agenda.map fun a => { a with entries := [] } }

end BatchSession

end Courier

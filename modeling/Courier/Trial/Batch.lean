import Courier.Batch.Session
import Courier.Random
import Courier.Trial.Verdict

/-!
# Trials of batching

Several producers hand numbered items to one batcher, in an order that the seed decides, while its alarms go
off by chance. In the end every item has to be in one batch or be counted as lost, and no batch may be too
large.
-/

namespace Courier

structure BatchPlan where
  /-- Whether the batcher takes entries of a log. -/
  logs : Bool := false
  producers : Nat := 4
  /-- How many items each producer has. -/
  items : Nat := 250
  maxSize : UInt64 := 8
  /-- How likely all alarms go off before an item. -/
  alarmOdds : Float := 0.3
  deriving Inhabited

namespace BatchPlan

/-- Small batches, many producers and alarms that go off all the time. -/
def contended : BatchPlan where
  producers := 8
  items := 200
  maxSize := 2
  alarmOdds := 0.8

def total (p : BatchPlan) : Nat := p.producers * p.items

/-- The numbers of the items that a producer has. -/
def numbersOf (p : BatchPlan) (producer : Nat) : List Nat :=
  (List.range p.items).map (producer * p.items + ·)

def category (p : BatchPlan) : Category := if p.logs then .logItem else .span

end BatchPlan

structure BatchOutcome extends Verdict where
  produced : UInt64 := 0
  emitted : UInt64 := 0
  /-- What found no place in a batch. -/
  dropped : UInt64 := 0
  envelopes : UInt64 := 0
  duplicates : Nat := 0
  /-- How many batches are too large. -/
  oversized : Nat := 0
  deriving Inhabited

namespace BatchOutcome

def isBalanced (o : BatchOutcome) : Bool := o.produced == o.emitted + o.dropped

/-- What is wrong, when so many items were taken and so many are left. -/
def violations (o : BatchOutcome) (accepted : UInt64) (left : Nat) : List String :=
  (if o.isBalanced then []
    else ["produced " ++ toString o.produced ++ " != emitted " ++ toString o.emitted ++
      " + dropped " ++ toString o.dropped]) ++
  (if accepted = o.emitted then []
    else ["accepted " ++ toString accepted ++ " != emitted " ++ toString o.emitted]) ++
  (if o.duplicates = 0 then [] else [toString o.duplicates ++ " duplicate items"]) ++
  (if o.oversized = 0 then [] else [toString o.oversized ++ " oversized batches"]) ++
  (if left = 0 then [] else [toString left ++ " items left after flush"])

def judged (o : BatchOutcome) (accepted : UInt64) (left : Nat) : BatchOutcome :=
  match o.violations accepted left with
  | [] => o
  | found =>
    { o with
      passed := false
      message := some ("INVARIANT VIOLATION: " ++ "; ".intercalate found) }

def summary (s : Sums) (outcomes : List BatchOutcome) : Except Overflow String := do
  let total (title : String) (f : BatchOutcome → UInt64) : Except Overflow (String × UInt64) :=
    (s.total (outcomes.map f)).map fun n => (title, n)
  let totals := [← total "Produced" produced, ← total "Emitted" emitted, ← total "Dropped" dropped,
    ← total "Envelopes" envelopes]
  return Verdict.summary "Batch DST Batch" totals (outcomes.map toVerdict)

end BatchOutcome

/-- Why a trial has no books to balance. -/
inductive BatchTrialError
  | start (e : SettingsError)
  | unreadable
  /-- A batch says another number of items than it holds. -/
  | miscounted (count : UInt64) (found : Nat)
  deriving DecidableEq, Repr, Inhabited

def BatchTrialError.message : BatchTrialError → String
  | start e => "Failed to build processor: " ++ e.message?.getD ""
  | unreadable => "unreadable batch payload"
  | miscounted count found =>
    "item_count " ++ toString count ++ " does not match payload length " ++ toString found

structure BatchTrial where
  plan : BatchPlan
  random : RandomStream
  session : BatchSession
  /-- What each producer still has. -/
  waiting : List (List Nat)
  accepted : UInt64 := 0

namespace BatchTrial

def epoch : Timestamp := ⟨1700000000000⟩

def settings (p : BatchPlan) : BatchSettings := ⟨p.maxSize, .ofMillis 100⟩

def processor (p : BatchPlan) : Except SettingsError Processor :=
  if p.logs then (LogBatcher.make (settings p)).map .logs
  else (Batcher.make (settings p) .span none).map .items

def ofSeed (p : BatchPlan) (seed : UInt64) : Except SettingsError BatchTrial :=
  (processor p).map fun processor =>
    { plan := p
      random := .ofSeed seed
      session := { processor := processor, ledger := {} }
      waiting := ((List.range p.producers).map p.numbersOf).filter (!·.isEmpty) }

/-! ## Running -/

def command (p : BatchPlan) (number : Nat) : BatchCommand :=
  if p.logs then .log { timestamp := epoch, level := .info, body := toString number }
  else .add (some (.ofNat number.toUInt64))

def ring (t : BatchTrial) : BatchTrial :=
  let (rings, random) := t.random.chance t.plan.alarmOdds
  { t with random := random, session := if rings then t.session.fireAll.2 else t.session }

def enqueue (t : BatchTrial) (number : Nat) : BatchTrial :=
  let (session, reply) := t.session.run (command t.plan number)
  { t with
    session := session
    accepted := if reply = .taken true then t.accepted + 1 else t.accepted }

def turn (t : BatchTrial) : BatchTrial :=
  let t := t.ring
  let (k, random) := t.random.below t.waiting.length
  let t := { t with random := random }
  match t.waiting[k]? with
  | some (number :: rest) =>
    { t with waiting := if rest.isEmpty then t.waiting.eraseIdx k else t.waiting.set k rest }.enqueue
      number
  | _ => t

def turns : Nat → BatchTrial → BatchTrial
  | 0, t => t
  | n + 1, t => turns n t.turn

def flush (t : BatchTrial) : BatchTrial := { t with session := (t.session.run .flush).1 }

/-! ## Books -/

def number? (entry : Json) : Option Nat :=
  match entry with
  | .obj members => ((Object.get? members "body").bind Json.string?).bind String.toNat?
  | v => v.natural?.map UInt64.toNat

def numbers? (e : Envelope) : Option (List Nat) :=
  match e.items.head?.bind fun i => i.payload.json? with
  | some (.obj payload) =>
    match Object.get? payload "items" with
    | some (.arr entries) => entries.mapM number?
    | _ => none
  | _ => none

def batch (e : Envelope) : Except BatchTrialError (List Nat) :=
  match numbers? e with
  | none => .error .unreadable
  | some l =>
    if l.length.toUInt64 = e.telemetrySum then .ok l
    else .error (.miscounted e.telemetrySum l.length)

def outcome (t : BatchTrial) (seed : UInt64) : Except BatchTrialError BatchOutcome := do
  let batches ← t.session.envelopes.mapM batch
  let numbers := batches.flatten
  let o : BatchOutcome := {
    seed := seed
    produced := t.plan.total.toUInt64
    emitted := numbers.length.toUInt64
    dropped := t.session.ledger.pending ⟨.backpressure, t.plan.category⟩
    envelopes := batches.length.toUInt64
    duplicates := numbers.length - numbers.eraseDups.length
    oversized := (batches.filter (t.plan.maxSize.toNat < ·.length)).length }
  return o.judged t.accepted t.session.processor.pending

end BatchTrial

namespace BatchPlan

def run (p : BatchPlan) (seed : UInt64) : Except BatchTrialError BatchOutcome := do
  let t ← (BatchTrial.ofSeed p seed).mapError .start
  (t.turns p.total).flush.outcome seed

/-- The outcome of the trial with this seed. -/
def outcome (p : BatchPlan) (seed : UInt64) : BatchOutcome :=
  match p.run seed with
  | .ok o => o
  | .error e => { seed := seed, passed := false, message := some e.message }

end BatchPlan

end Courier

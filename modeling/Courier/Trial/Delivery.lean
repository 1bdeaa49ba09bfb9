import Courier.Delivery.Simulation
import Courier.Trial.Verdict

/-!
# Trials of delivery

A producer puts envelopes into the queue of a worker whose transport fails by chance. It lets the worker go on
now and then, and the worker may die halfway, with another one going on over the same files. In the end
everything that was produced has to be delivered, reported as lost or left in a file, and no envelope may have
been delivered twice. What one trial counts is small, so its own sums are the same modulo `2^64`.
-/

namespace Courier

structure DeliveryPlan where
  envelopes : Nat := 100
  queueCapacity : UInt64 := 16
  cacheCapacity : UInt64 := 30
  /-- Whether envelopes are kept in files. -/
  durable : Bool := false
  /-- Whether the worker dies before one of the envelopes but the first. -/
  crash : Bool := false
  /-- How likely the worker may go on after an envelope. -/
  yieldOdds : Float := 0.5
  flushOdds : Float := 0.05
  failures : FailureOdds := {}
  deriving Inhabited

namespace DeliveryPlan

def calm : DeliveryPlan := { failures := .reliable }

def flaky : DeliveryPlan := { durable := true, crash := true, failures := .flaky }

def chaotic : DeliveryPlan where
  envelopes := 200
  queueCapacity := 4
  cacheCapacity := 3
  durable := true
  crash := true
  yieldOdds := 0.2
  flushOdds := 0.02
  failures := .chaotic

end DeliveryPlan

structure DeliveryOutcome extends Verdict where
  produced : UInt64 := 0
  delivered : UInt64 := 0
  /-- What was lost: reported, or still in the ledger. -/
  discarded : UInt64 := 0
  /-- What is left in files. -/
  cached : UInt64 := 0
  duplicates : Nat := 0
  restarts : UInt64 := 0
  stats : SendStats := {}
  deriving Inhabited

namespace DeliveryOutcome

def isBalanced (o : DeliveryOutcome) : Bool := o.produced == o.delivered + o.discarded + o.cached

/-- The verdict on what is in the books. -/
def judged (o : DeliveryOutcome) : DeliveryOutcome :=
  let passed := o.isBalanced && o.duplicates == 0
  { o with
    passed := passed
    message :=
      if passed then none
      else some ("INVARIANT VIOLATION: produced " ++ toString o.produced ++ " != delivered " ++
        toString o.delivered ++ " + discarded " ++ toString o.discarded ++ " + cached " ++
        toString o.cached ++ ", duplicates " ++ toString o.duplicates) }

def summary (s : Sums) (outcomes : List DeliveryOutcome) : Except Overflow String := do
  let total (title : String) (f : DeliveryOutcome → UInt64) : Except Overflow (String × UInt64) :=
    (s.total (outcomes.map f)).map fun n => (title, n)
  let totals := [← total "Produced" produced, ← total "Delivered" delivered, ← total "Discarded" discarded,
    ← total "Cached" cached, ← total "Restarts" restarts]
  return Verdict.summary "Delivery DST Batch" totals (outcomes.map toVerdict)

end DeliveryOutcome

/-- Why a trial has no books to balance. -/
inductive DeliveryTrialError
  | start (e : DeliveryError)
  | restart (e : DeliveryError)
  | flush
  deriving DecidableEq, Repr, Inhabited

def DeliveryTrialError.message : DeliveryTrialError → String
  | start e => "Failed to start worker: " ++ e.message?.getD ""
  | restart e => "Failed to restart worker: " ++ e.message?.getD ""
  | flush => "Final flush timed out"

structure DeliveryTrial where
  plan : DeliveryPlan
  random : RandomStream
  simulation : Simulation
  /-- The envelope before which the worker dies. -/
  crashAt : Option Nat := none
  produced : UInt64 := 0
  restarts : UInt64 := 0

namespace DeliveryTrial

def worker : String := "worker"

def cacheDir : String := "/trial/envelopes"

/-- Longer than a worker needs in a trial. -/
def patience : Duration := .ofSeconds 10

def epoch : Clock := ⟨⟨1700000000000⟩⟩

def settings (p : DeliveryPlan) (shutdownTimeout : Duration) : Settings :=
  { Settings.small with
    queueCapacity := p.queueCapacity
    cacheCapacity := p.cacheCapacity
    shutdownTimeout := shutdownTimeout
    cacheDir := some cacheDir
    retry := ⟨3, .ofMillis 1, .ofMillis 4, 2.0⟩ }

/-! ## Envelopes -/

def numberKey : String := "trial_number"

def eventOf (number : Nat) : Envelope :=
  .ofEvent ("event-" ++ toString number) (.obj [("message", .str "trial")])

def logsOf (count : Nat) : Envelope :=
  .ofBatch .log (some LogEntry.contentType)
    (.obj [("items", .arr ((List.range count).map fun n => .obj [("body", .ofNat n.toUInt64)]))])
    count.toUInt64

/-- Mostly an event, else up to five entries of a log and seldom an attachment with them. -/
def contents (number : Nat) (r : RandomStream) : Envelope × RandomStream :=
  let (event, r) := r.chance 0.7
  if event then (eventOf number, r)
  else
    let (n, r) := r.below 5
    let (attached, r) := r.chance 0.2
    let e := logsOf (n + 1)
    (if attached then e.push (.make .attachment (.json (.str "blob"))) else e, r)

def numbered (number : Nat) (e : Envelope) : Envelope :=
  e.withHeader numberKey (.ofNat number.toUInt64)

def number? (e : Envelope) : Option UInt64 := (e.header.get? numberKey).bind Json.natural?

/-! ## Running -/

def start (t : DeliveryTrial) (shutdownTimeout : Duration) : Except DeliveryError DeliveryTrial :=
  let (r, s) := t.simulation.start worker t.plan.durable (settings t.plan shutdownTimeout)
  r.map fun _ => { t with simulation := s }

def wait (t : DeliveryTrial) (e : Errand) : Bool × DeliveryTrial :=
  match t.simulation.worker? worker with
  | none => (false, t)
  | some (key, _) =>
    let (r, s) := t.simulation.waitFront key e
    (r matches .ok (some true), { t with simulation := s })

def flush (t : DeliveryTrial) : Bool × DeliveryTrial := t.wait (.flush patience)

/-- Shuts the worker down and lets it go. -/
def stop (t : DeliveryTrial) : DeliveryTrial :=
  let t := (t.wait .shutdown).2
  let t := (t.wait (.stopped patience)).2
  { t with simulation := (t.simulation.drop worker).2 }

/-- The worker dies at once, and another one starts over what it left behind. -/
def crash (t : DeliveryTrial) : Except DeliveryTrialError DeliveryTrial := do
  let t := t.stop
  let (_, s) := t.simulation.onFiles fun storage => ((), { storage with files := storage.files.crash })
  let t ← ({ t with simulation := s }.start patience).mapError .restart
  return { t with restarts := t.restarts + 1 }

def pass (t : DeliveryTrial) (millis : Nat) : DeliveryTrial :=
  { t with simulation := t.simulation.advanceClock millis.toUInt64 }

def offer (t : DeliveryTrial) (e : Envelope) : DeliveryTrial :=
  match t.simulation.worker? worker with
  | none => t
  | some (key, _) =>
    { t with
      simulation := t.simulation.capture key e
      produced := t.produced + e.telemetrySum }

/-- Lets the worker go on, sometimes; up to three times in a row, of which the first is enough. -/
def yield (t : DeliveryTrial) : DeliveryTrial :=
  let (yields, random) := t.random.chance t.plan.yieldOdds
  if yields then
    let (_, random) := random.below32 3
    { t with random := random, simulation := t.simulation.settle }
  else { t with random := random }

/-- Waits until the worker is done, sometimes. -/
def pause (t : DeliveryTrial) : DeliveryTrial :=
  let (flushes, random) := t.random.chance t.plan.flushOdds
  let t := { t with random := random }
  if flushes then t.flush.2 else t

def produce (number : Nat) (t : DeliveryTrial) : DeliveryTrial :=
  let (millis, random) := t.random.below 50
  let (e, random) := contents number random
  (({ t with random := random }.pass millis).offer (numbered number e)).yield.pause

def step (t : DeliveryTrial) (number : Nat) : Except DeliveryTrialError DeliveryTrial :=
  (if t.crashAt = some number then t.crash else .ok t).map (produce number)

/-- Draws what the trial needs beforehand. A worker that is to die does not wait for what is left. -/
def ofSeed (plan : DeliveryPlan) (seed : UInt64) : DeliveryTrial × Duration :=
  let (transportSeed, random) := (RandomStream.ofSeed seed).word64
  let transport := Transport.random (.ofSeed transportSeed plan.failures)
  let t : DeliveryTrial := {
    plan := plan
    random := random
    simulation := .ofSettings (settings plan patience) epoch transport }
  if plan.crash && 1 < plan.envelopes then
    let (n, random) := random.below (plan.envelopes - 1)
    ({ t with random := random, crashAt := some (n + 1) }, .zero)
  else (t, patience)

def run (plan : DeliveryPlan) (seed : UInt64) : Except DeliveryTrialError DeliveryTrial := do
  let (t, shutdownTimeout) := ofSeed plan seed
  let t ← (t.start shutdownTimeout).mapError .start
  let t ← (List.range plan.envelopes).foldlM step t
  let (done, t) := t.flush
  if done then return t.stop else throw .flush

/-! ## Books -/

def reported (e : Envelope) : UInt64 :=
  (e.items.map fun i =>
    match i.kind, i.payload.json? with
    | .clientReport, some v =>
      match LossReport.ofText? .wrapping v.text with
      | .ok (some r) => r.losses.sum
      | _ => 0
    | _, _ => 0).sum

def cached (fs : Storage) : UInt64 :=
  ((fs.files.list ⟨cacheDir⟩ SpillDir.extension).map fun file =>
    ((SpillDir.load? fs file).map Envelope.telemetrySum).getD 0).sum

def outcome (t : DeliveryTrial) (seed : UInt64) : DeliveryOutcome :=
  let s := t.simulation
  let delivered := s.transport.delivered
  let numbers := delivered.filterMap number?
  let o : DeliveryOutcome := {
    seed := seed
    produced := t.produced
    delivered := (delivered.map Envelope.telemetrySum).sum
    discarded := (delivered.map reported).sum + s.depot.ledger.pendingSum
    cached := cached s.depot.storage
    duplicates := numbers.length - numbers.eraseDups.length
    restarts := t.restarts
    stats := s.transport.stats }
  o.judged

end DeliveryTrial

namespace DeliveryPlan

/-- The outcome of the trial with this seed. -/
def outcome (p : DeliveryPlan) (seed : UInt64) : DeliveryOutcome :=
  match DeliveryTrial.run p seed with
  | .ok t => t.outcome seed
  | .error e => { seed := seed, passed := false, message := some e.message }

end DeliveryPlan

end Courier

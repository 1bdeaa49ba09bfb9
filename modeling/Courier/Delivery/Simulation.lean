import Courier.Agenda
import Courier.Batch.Processor
import Courier.Delivery.Wait

/-!
# Workers under virtual time

Workers, those who wait for them and batchers that feed them, all on one thread. What can run does so in the
order in which it became able to, until it has to wait itself. Time moves only while the foreground waits and
nothing else can run.
-/

namespace Courier

/-- What can run. -/
inductive Job
  /-- A worker goes on. -/
  | work (worker : Nat)
  /-- Somebody in the background looks at a worker. -/
  | look (wait : Nat)
  /-- A worker that nobody holds any more gets its time to drain. -/
  | leave (worker : Nat)
  /-- That time is over. -/
  | evict (worker : Nat)
  /-- The alarm of a batcher starts, as it was armed this many times. -/
  | setAlarm (batcher alarm count : Nat)
  | ring (batcher alarm count : Nat)
  /-- The pressure is checked, for the n-th time. -/
  | check (n : Nat)
  /-- The foreground wakes up. -/
  | wake
  deriving DecidableEq, Repr, Inhabited

/-- A worker, and until when it waits for the transport or for a pause. -/
structure Post where
  worker : Worker
  until? : Option Nat := none
  deriving Inhabited

structure Waiting where
  wait : Wait
  worker : Nat
  /-- When the wait was over. -/
  ended : Nat := 0
  deriving Inhabited

structure Feed where
  processor : Processor
  worker : Nat
  gone : Bool := false

structure Simulation where
  depot : Depot := {}
  transport : Transport := .scripted {}
  /-- How often the pressure is checked, if it is. -/
  checkInterval : Option Duration := none
  agenda : Agenda Job := {}
  /-- What can run, in order. -/
  ready : List Job := []
  posts : List Post := []
  waits : List Waiting := []
  feeds : List Feed := []
  /-- Who is known by a name. -/
  workers : List (String × Nat) := []
  tasks : List (String × Nat) := []
  batchers : List (String × Nat) := []
  /-- The wait in the foreground. -/
  front : Option Nat := none

namespace Simulation

/-! ## Waking up -/

def now (s : Simulation) : Nat := s.agenda.now

def wake (s : Simulation) (j : Job) : Simulation :=
  if s.ready.contains j then s else { s with ready := s.ready ++ [j] }

/-- Whether there is something to do for a worker that waits. -/
def isRousable (w : Worker) : Bool :=
  match w.position with
  | .idle => w.phase != .running || !w.queue.isEmpty
  | .sending _ _ _ | .pausing _ _ => w.aborted
  | _ => false

def setPost (s : Simulation) (key : Nat) (p : Post) : Simulation :=
  { s with posts := s.posts.set key p }

/-- Whether a worker hears of something: an envelope, a shutdown or an abort. -/
def hasNews (before after : Worker) : Bool :=
  before.queue.length != after.queue.length || before.phase != after.phase ||
    before.aborted != after.aborted

/-- Puts a worker back that somebody has dealt with, and wakes it if it has heard of something to do. -/
def setWorker (s : Simulation) (key : Nat) (w : Worker) : Simulation :=
  match s.posts[key]? with
  | none => s
  | some p =>
    let s := s.setPost key { p with worker := w }
    if hasNews p.worker w && isRousable w then s.wake (.work key) else s

/-- Wakes those in the background who wait for this worker. -/
def wakeWaits (s : Simulation) (key : Nat) : Simulation :=
  (List.range s.waits.length).foldl
    (fun s k =>
      match s.waits[k]? with
      | some x =>
        if x.worker == key && !x.wait.isDone && s.front != some k then s.wake (.look k) else s
      | none => s)
    s

/-! ## Workers -/

def waitFor (s : Simulation) (key : Nat) (p : Post) (ticks : Nat) : Simulation :=
  { s.setPost key { p with until? := some (s.now + ticks) } with
    agenda := s.agenda.add ticks (.work key) }

def ended (s : Simulation) (key : Nat) (p : Post) : Simulation :=
  if p.until?.isSome then { s with agenda := s.agenda.cancel (· == .work key) } else s

def answer (s : Simulation) (key : Nat) (p : Post) (e : Envelope) : Simulation :=
  let (r, transport) := s.transport.finish false e
  let after := p.worker.answered s.depot r
  { s.setPost key ⟨after.worker, none⟩ with depot := after.depot, transport := transport }

def pause (w : Worker) (attempt : UInt32) : Nat :=
  match w.handling with
  | .once => 0
  | .durable _ retry => (retry.backoff attempt).ticks

/-- Lets a worker that waits go on, if its time has come: the simulation, and whether it goes on. -/
def proceed (s : Simulation) (key : Nat) (p : Post) : Bool × Simulation :=
  match p.worker.position with
  | .sending _ _ out =>
    match p.until? with
    | some t => if t ≤ s.now then (true, s.answer key p out.envelope) else (false, s)
    | none =>
      let (delay, transport) := s.transport.start
      let s := { s with transport := transport }
      if delay.ticks = 0 then (true, s.answer key p out.envelope)
      else (false, s.waitFor key p delay.ticks)
  | .pausing _ attempt =>
    match p.until? with
    | some t => if t ≤ s.now then (true, s.setPost key ⟨p.worker.resumed, none⟩) else (false, s)
    | none =>
      let ticks := pause p.worker attempt
      if ticks = 0 then (true, s.setPost key ⟨p.worker.resumed, none⟩)
      else (false, s.waitFor key p ticks)
  | _ => (false, s)

/-- Lets a worker go on until it has to wait. -/
def work : Nat → Nat → Simulation → Simulation
  | 0, _, s => s
  | fuel + 1, key, s =>
    match s.posts[key]? with
    | none => s
    | some p =>
      match p.worker.step? s.depot with
      | some after =>
        work fuel key { (s.ended key p).setPost key ⟨after.worker, none⟩ with depot := after.depot }
      | none =>
        match s.proceed key p with
        | (true, s) => work fuel key s
        | (false, s) => s

/-- Steps that a worker takes at most before it has nothing left to do. -/
def effort (w : Worker) : Nat :=
  let attempts :=
    match w.handling with
    | .once => 1
    | .durable _ retry => retry.maxAttempts.toNat
  (w.queue.length + 2) * (3 * attempts + 6)

def runWorker (s : Simulation) (key : Nat) : Simulation :=
  match s.posts[key]? with
  | none => s
  | some p =>
    let s := work (effort p.worker) key s
    match s.posts[key]? with
    | none => s
    | some q =>
      if q.worker.processed != p.worker.processed || q.worker.phase != p.worker.phase then
        s.wakeWaits key
      else s

/-! ## Leaving -/

/-- Whether somebody still holds a worker: by its name, by waiting for it or by feeding it. -/
def isHeld (s : Simulation) (key : Nat) : Bool :=
  s.workers.any (·.2 == key) || s.waits.any (fun x => x.worker == key && !x.wait.isDone) ||
    s.feeds.any fun f => f.worker == key && !f.gone

/-- A worker that nobody holds any more is shut down. -/
def letGo (s : Simulation) (key : Nat) : Simulation :=
  match s.posts[key]? with
  | none => s
  | some p =>
    if s.isHeld key then s
    else
      match p.worker.beginShutdown with
      | (false, _) => s
      | (true, w) =>
        if w.shutdownTimeout = .zero then s.setWorker key w.abort
        else (s.setWorker key w).wake (.leave key)

/-! ## Waits -/

def setWait (s : Simulation) (k : Nat) (x : Waiting) : Simulation :=
  { s with waits := s.waits.set k x }

def enterDeadline (s : Simulation) (k : Nat) (before after : Wait) : Simulation :=
  if before = after then s
  else
    let a := s.agenda.cancel (· == .look k)
    match after.deadline? with
    | some t => { s with agenda := a.add (t - s.now) (.look k) }
    | none => { s with agenda := a }

def look (s : Simulation) (k : Nat) : Simulation :=
  match s.waits[k]? with
  | none => s
  | some x =>
    if x.wait.isDone then s
    else
      match s.posts[x.worker]? with
      | none => s
      | some p =>
        let (w, after) := x.wait.poll s.now p.worker s.depot
        let s := s.setWorker x.worker w
        let s := s.setWait k ⟨after, x.worker, s.now⟩
        let s := s.enterDeadline k x.wait after
        if after.isDone then s.letGo x.worker else s

/-! ## Feeds -/

def take (key : Nat) (s : Simulation) : Emission → Simulation
  | .loss l n => { s with depot := { s.depot with ledger := s.depot.ledger.record l n } }
  | .envelope e =>
    match s.posts[key]? with
    | none => s
    | some p =>
      let (w, d) := p.worker.capture s.depot e
      { s with depot := d }.setWorker key w

def setFeed (s : Simulation) (k : Nat) (f : Feed) : Simulation :=
  { s with feeds := s.feeds.set k f }

def startAlarms (k : Nat) (s : Simulation) (alarms : List (Alarm Unit × Alarm Unit × Nat)) :
    Simulation :=
  alarms.foldl
    (fun s (old, new, i) =>
      if new.isArmed && old.armCount != new.armCount then s.wake (.setAlarm k i new.armCount) else s)
    s

def fed (s : Simulation) (k : Nat) (f : Feed) (r : List Emission × Processor × BatchReply) :
    Simulation :=
  let (out, p, _) := r
  let s := out.foldl (take f.worker) (s.setFeed k { f with processor := p })
  startAlarms k s
    (f.processor.alarms.zip (p.alarms.zip (List.range p.alarms.length)))

/-- The alarm of a batcher, if it is still armed as it was then. -/
def armed? (s : Simulation) (k i count : Nat) : Option (Feed × Duration) :=
  match s.feeds[k]? with
  | none => none
  | some f =>
    if f.gone then none
    else
      match f.processor.alarms[i]? with
      | none => none
      | some a => if a.armCount = count then a.delay?.map fun d => (f, d) else none

/-! ## Running -/

def setMonitor (s : Simulation) (m : Option PressureMonitor) : Simulation :=
  { s with depot := { s.depot with monitor := m } }

/-- The check after the n-th, at a multiple of the interval. -/
def nextCheck (s : Simulation) (n : Nat) : Simulation :=
  match s.checkInterval with
  | none => s
  | some d =>
    { s with agenda := s.agenda.add ((⟨(n + 1) * d.nanos⟩ : Duration).ticks - s.now) (.check (n + 1)) }

def run (s : Simulation) : Job → Simulation
  | .work key => s.runWorker key
  | .look k => s.look k
  | .leave key =>
    match s.posts[key]? with
    | some p => { s with agenda := s.agenda.add p.worker.shutdownTimeout.ticks (.evict key) }
    | none => s
  | .evict key =>
    match s.posts[key]? with
    | some p => s.setWorker key p.worker.abort
    | none => s
  | .setAlarm k i count =>
    match s.armed? k i count with
    | some (_, d) => { s with agenda := s.agenda.add d.ticks (.ring k i count) }
    | none => s
  | .ring k i count =>
    match s.armed? k i count with
    | some (f, _) =>
      let f := { f with processor := f.processor.disarm i }
      s.fed k f (f.processor.runTimeout i)
    | none => s
  | .check n =>
    let checked :=
      -- the job with the number zero only enters the first check
      if n = 0 then s else s.setMonitor (s.depot.monitor.map (·.check s.depot.clock.now))
    checked.nextCheck n
  | .wake => s

def runReady : Nat → Simulation → Simulation
  | 0, s => s
  | fuel + 1, s =>
    match s.ready with
    | [] => s
    | j :: rest => runReady fuel ({ s with ready := rest }.run j)

/-- Jobs that run at most before all wait. Each wait can set a worker going twice, and each time a worker has
gone on, all who wait for it look. -/
def bustle (s : Simulation) : Nat :=
  (8 + 6 * s.waits.length + 2 * s.posts.length) *
    (4 + s.ready.length + s.waits.length + s.posts.length + 2 * s.feeds.length)

def settle (s : Simulation) : Simulation := runReady s.bustle s

def lookFront (s : Simulation) : Simulation :=
  match s.front with
  | some k => s.look k
  | none => s

/-- Moves time to what is due next; the foreground is looked at anyway. -/
def jump (s : Simulation) : Option Simulation :=
  s.agenda.next?.map fun t =>
    let (due, agenda) := s.agenda.moveTo t
    (due.filter fun j => j != .wake && s.front.all (j != .look ·)).foldl wake
      { s with agenda := agenda }

/-- Waits in the foreground until it is over. -/
def await (finished : Simulation → Bool) : Nat → Simulation → Simulation
  | 0, s => s
  | fuel + 1, s =>
    let s := s.lookFront
    if finished s then s
    else
      let s := s.settle.lookFront
      if finished s then s
      -- time moves only if what the foreground saw gave nobody anything to do
      else if !s.ready.isEmpty then await finished fuel s
      else
        match s.jump with
        | none => s
        | some s => await finished fuel s

/-! ## Conditions -/

def mapDepot (s : Simulation) (f : Depot → Depot) : Simulation := { s with depot := f s.depot }

def advanceClock (s : Simulation) (millis : UInt64) : Simulation :=
  s.mapDepot fun d => { d with clock := d.clock.advanceMillis millis }

def onStorage {β : Type} (s : Simulation) (f : Storage → β × Storage) : β × Simulation :=
  let (x, storage) := f s.depot.storage
  (x, s.mapDepot fun d => { d with storage := storage })

/-- As `onStorage`, past the operations that are denied. -/
def onFiles {β : Type} (s : Simulation) (f : Storage → β × Storage) : β × Simulation :=
  s.onStorage fun storage =>
    let (x, after) := f { storage with denied := [] }
    (x, { after with denied := storage.denied })

def mapScript (s : Simulation) (f : ScriptedTransport → ScriptedTransport) : Simulation :=
  match s.transport with
  | .scripted t => { s with transport := .scripted (f t) }
  | .random _ => s

/-! ## Operations -/

def sleep (s : Simulation) (ticks : Nat) : Simulation :=
  let stop := s.now + ticks
  let s := if ticks = 0 then s else { s with agenda := s.agenda.add ticks .wake }
  (await (fun s => decide (stop ≤ s.now)) (ticks + 2) s).settle

def isOver (k : Nat) (s : Simulation) : Bool := (s.waits[k]?).all (·.wait.isDone)

def patience (s : Simulation) (k : Nat) : Nat :=
  match s.waits[k]? with
  | none => 0
  | some x => ((s.posts[x.worker]?).map fun p => x.wait.patience p.worker s.now).getD 0

def outcome (s : Simulation) (k : Nat) : Except Overflow (Option Bool) × Nat :=
  match s.waits[k]? with
  | some ⟨.done r, _, t⟩ => (.ok r, t)
  | some ⟨.broken, _, t⟩ => (.error {}, t)
  | _ => (.ok none, s.now)

def addWait (s : Simulation) (key : Nat) (e : Errand) : Simulation :=
  let x : Waiting := { wait := .begun e, worker := key }
  { s with waits := s.waits ++ [x] }

def waitFront (s : Simulation) (key : Nat) (e : Errand) : Except Overflow (Option Bool) × Simulation :=
  let k := s.waits.length
  let s := { s.addWait key e with front := some k }
  let s := await (isOver k) (s.patience k + 8) s
  ((s.outcome k).1, { s with front := none })

def spawn (s : Simulation) (id : String) (key : Nat) (e : Errand) : Simulation :=
  let k := s.waits.length
  { s.addWait key e with tasks := (id, k) :: s.tasks.filter (·.1 != id) }.wake (.look k)

def join (s : Simulation) (id : String) : Option ((Except Overflow (Option Bool) × Nat) × Simulation) :=
  (s.tasks.lookup id).map fun k =>
    let s := await (isOver k) (s.patience k + 8) s
    (s.outcome k, { s with tasks := s.tasks.filter (·.1 != id) })

def worker? (s : Simulation) (name : String) : Option (Nat × Worker) :=
  (s.workers.lookup name).bind fun key => (s.posts[key]?).map fun p => (key, p.worker)

def drop (s : Simulation) (name : String) : Bool × Simulation :=
  match s.workers.lookup name with
  | none => (false, s)
  | some key => (true, { s with workers := s.workers.filter (·.1 != name) }.letGo key)

/-- A worker gets a name; who had it before is let go after that. -/
def employ (s : Simulation) (name : String) (w : Worker) : Simulation :=
  let key := s.posts.length
  let old := s.workers.lookup name
  let post : Post := { worker := w }
  let s := { s with
    posts := s.posts ++ [post]
    workers := (name, key) :: s.workers.filter (·.1 != name) }.wake (.work key)
  match old with
  | some key => s.letGo key
  | none => s

def start (s : Simulation) (name : String) (durable : Bool) (settings : Settings) :
    Except DeliveryError Worker × Simulation :=
  let (r, storage) :=
    if durable then Worker.startDurable settings s.depot.storage
    else (Worker.start settings, s.depot.storage)
  let s := { s with depot := { s.depot with storage := storage } }
  match r with
  | .error e => (.error e, s)
  | .ok w => (.ok w, s.employ name w)

def enqueue (s : Simulation) (key : Nat) (w : Worker) (e : Envelope) :
    Except DeliveryError Bool × Simulation :=
  let (r, w, d) := w.enqueue s.depot e
  (r, { s with depot := d }.setWorker key w)

/-- Puts envelopes into the queue; how many were taken. -/
def enqueueAll (s : Simulation) (key : Nat) : List Envelope → Nat × Simulation
  | [] => (0, s)
  | e :: rest =>
    match s.posts[key]? with
    | none => (0, s)
    | some p =>
      let (r, s) := s.enqueue key p.worker e
      let (n, s) := enqueueAll s key rest
      (match r with
        | .ok true => n + 1
        | _ => n, s)

def capture (s : Simulation) (key : Nat) (e : Envelope) : Simulation :=
  take key s (.envelope e)

def isLog (s : Simulation) (k : Nat) : Bool :=
  (s.feeds[k]?).any fun f => f.processor.active?.isSome

def batch (s : Simulation) (k : Nat) (c : BatchCommand) : BatchReply × Simulation :=
  match s.feeds[k]? with
  | none => (.done, s)
  | some f =>
    let r := f.processor.run c
    (r.2.2, s.fed k f r)

def discard (s : Simulation) (k : Nat) : Simulation :=
  match (s.batch k .dispose).2 with
  | s =>
    match s.feeds[k]? with
    | none => s
    | some f => (s.setFeed k { f with gone := true }).letGo f.worker

/-- A batcher that feeds a worker gets a name; who had it before goes after that. -/
def feed (s : Simulation) (id : String) (p : Processor) (key : Nat) : Simulation :=
  let k := s.feeds.length
  let old := s.batchers.lookup id
  let f : Feed := { processor := p, worker := key }
  let s := { s with
    feeds := s.feeds ++ [f]
    batchers := (id, k) :: s.batchers.filter (·.1 != id) }
  match old with
  | some k => s.discard k
  | none => s

/-- What a configuration asks for: losses are counted if they are reported, and the pressure is checked if
that is enabled and there is an interval. -/
def ofSettings (settings : Settings) (clock : Clock) (transport : Transport) : Simulation :=
  let interval := settings.pressure.checkInterval
  let checked := settings.pressure.enabled && interval ≠ .zero
  { depot :=
      { ledger := { enabled := settings.reportLosses }
        clock := clock
        monitor := if settings.pressure.enabled then some {} else none }
    transport := transport
    checkInterval := if checked then some interval else none
    ready := if checked then [.check 0] else [] }

end Simulation

end Courier

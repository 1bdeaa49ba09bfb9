import Courier.Delivery.Simulation
import Courier.Proofs.Flush

/-!
# Giving up

A worker that is told to give up hands nothing to the transport any more. What it has in hand ends as it is, what is
queued is given away in order, and then the worker stops. It is told so when it has been shut down for too long, or
when nobody holds it any more.
-/

namespace Courier

/-! ## Letting go -/

/-- Nobody holds the worker any more. It shuts down, and gives up at once if it has no time for that or if there is
nobody to keep the time. -/
def Worker.letGo (w : Worker) (timed : Bool) : Worker :=
  match w.beginShutdown with
  | (false, w) => w
  | (true, w) => if timed && w.shutdownTimeout ≠ .zero then w else w.abort

namespace Simulation

variable {s : Simulation} {key : Nat} {p : Post}

theorem wake_posts (s : Simulation) (j : Job) : (s.wake j).posts = s.posts := by
  unfold wake
  split <;> rfl

theorem setWorker_worker (hp : s.posts[key]? = some p) (w : Worker) :
    ((s.setWorker key w).posts[key]?).map (·.worker) = some w := by
  have hs : (s.setWorker key w).posts = s.posts.set key { p with worker := w } := by
    simp only [setWorker, hp]
    split
    · exact wake_posts ..
    · rfl
  obtain ⟨hk, -⟩ := List.getElem?_eq_some_iff.mp hp
  simp [hs, hk]

/-- There, somebody always keeps the time. -/
theorem letGo_worker (hp : s.posts[key]? = some p) (hh : s.isHeld key = false) :
    ((s.letGo key).posts[key]?).map (·.worker) = some (p.worker.letGo true) := by
  by_cases hs : p.worker.phase = .running
  · have hb : p.worker.beginShutdown = (true, { p.worker with phase := .shuttingDown }) := if_pos hs
    by_cases ht : p.worker.shutdownTimeout = .zero
    · simp [letGo, Worker.letGo, hp, hh, hb, ht, setWorker_worker hp]
    · simp [letGo, Worker.letGo, hp, hh, hb, ht, wake_posts, setWorker_worker hp]
  · have hb : p.worker.beginShutdown = (false, p.worker) := if_neg hs
    simp [letGo, Worker.letGo, hp, hh, hb]

end Simulation

/-- What happens to a worker. -/
inductive Happening
  | act (a : Act)
  | drop (timed : Bool)
  /-- The time is over that a worker had when nobody held it any more. -/
  | timeUp

/-- What a worker asks of its handling: to handle an envelope, to give it away, or to end. -/
inductive Request
  | handle (p : Parcel)
  | abandon (p : Parcel)
  | stop

def Worker.request? (w : Worker) : Option Request :=
  match w.position with
  | .idle => (w.next?.bind Worker.hand?).map .handle
  | .closing =>
    match w.queue with
    | p :: _ => some (.abandon p)
    | [] => some .stop
  | _ => none

def Happening.steps : Happening → Nat
  | .act .step => 1
  | _ => 0

namespace Desk

def happens? (k : Desk) (d : Depot) : Happening → Option (Desk × Depot)
  | .act a => k.act? d a
  | .drop timed => some ({ k with worker := k.worker.letGo timed }, d)
  | .timeUp => if k.worker.phase = .running then none else some ({ k with worker := k.worker.abort }, d)

def requested (k : Desk) : Happening → List Request
  | .act .step => k.worker.request?.toList
  | _ => []

/-- What comes about at a desk, whatever happens elsewhere: what the worker has asked for on the way, and how many
steps it has taken. -/
inductive Ran (first : Desk) : List Request → Nat → Desk → Prop
  | refl : Ran first [] 0 first
  | next {asked n k k' d d'} (a : Happening) (hr : Ran first asked n k) (hh : k.happens? d a = some (k', d')) :
    Ran first (asked ++ k.requested a) (n + a.steps) k'

def trace? (k : Desk) (d : Depot) : List Happening → Option (List Request × Desk × Depot)
  | [] => some ([], k, d)
  | a :: as =>
    (k.happens? d a).bind fun x => (trace? x.1 x.2 as).map fun y => (k.requested a ++ y.1, y.2)

variable {k₀ k k' : Desk} {d d' : Depot} {a : Happening} {asked : List Request} {n : Nat}

theorem Ran.trans {more : List Request} {m : Nat} (hr : k₀.Ran asked n k) (hm : k.Ran more m k') :
    k₀.Ran (asked ++ more) (n + m) k' := by
  induction hm with
  | refl => simpa using hr
  | next a _ hh ih =>
    rw [← List.append_assoc, ← Nat.add_assoc]
    exact ih.next a hh

theorem Ran.of_trace? {as : List Happening} (h : k.trace? d as = some (asked, k', d')) :
    k.Ran asked (as.map Happening.steps).sum k' := by
  induction as generalizing k d asked with
  | nil => cases h; exact .refl
  | cons a as ih =>
    obtain ⟨⟨k₁, d₁⟩, hh, h⟩ := Option.bind_eq_some_iff.mp h
    obtain ⟨⟨more, y⟩, hy, h⟩ := Option.map_eq_some_iff.mp h
    cases h
    have hone : k.Ran (k.requested a) a.steps k₁ := by simpa using Ran.refl.next a hh
    simpa using hone.trans (ih hy)

end Desk

/-! ## Phases -/

inductive Phase.Leads : Phase → Phase → Prop
  | stay (s : Phase) : Leads s s
  | shutDown : Leads .running .shuttingDown
  | stop : Leads .shuttingDown .stopped

theorem Phase.Leads.not_running {s t : Phase} (h : s.Leads t) (hs : s ≠ .running) : t ≠ .running := by
  cases h with
  | stay => exact hs
  | shutDown => exact nofun
  | stop => exact nofun

namespace Worker

variable {w w' : Worker} {d : Depot} {p : Parcel} {x : Stride}

theorem begin_phase (w : Worker) (d : Depot) (p : Parcel) : (w.begin d p).worker.phase = w.phase := by
  obtain ⟨h, file, hb⟩ := begin_worker w d p
  rw [hb]

theorem abandon_phase (w : Worker) (d : Depot) (p : Parcel) : (w.abandon d p).worker.phase = w.phase := by
  obtain ⟨h, hw⟩ := forsake_worker w d p
  simp only [abandon, hw, release_phase]

theorem stop_phase (w : Worker) (d : Depot) : (w.stop d).worker.phase = .stopped := by
  unfold stop
  split <;> rfl

theorem abandon_position (w : Worker) (d : Depot) (p : Parcel) :
    (w.abandon d p).worker.position = w.position := by
  obtain ⟨h, hw⟩ := forsake_worker w d p
  simp [abandon, hw]

theorem abandon_queue (w : Worker) (d : Depot) (p : Parcel) : (w.abandon d p).worker.queue = w.queue := by
  obtain ⟨h, hw⟩ := forsake_worker w d p
  simp [abandon, hw]

theorem stop_position (w : Worker) (d : Depot) : (w.stop d).worker.position = .stopped := by
  unfold stop
  split <;> rfl

theorem conclude_position (w : Worker) (d : Depot) (p : Parcel) (f : Fate) :
    (w.conclude d p f).worker.position = .idle := rfl

theorem conclude_queue (w : Worker) (d : Depot) (p : Parcel) (f : Fate) :
    (w.conclude d p f).worker.queue = w.queue := finish_queue

theorem Move.phase (hm : w.Move d x) (hw : w.Sound) : w.phase.Leads x.worker.phase := by
  have stays {v : Worker} (h : v.phase = w.phase) : w.phase.Leads v.phase := by
    rw [h]
    exact .stay _
  cases hm with
  | close => exact .stay _
  | take => exact .stay _
  | begin => exact stays (begin_phase ..)
  | hand => exact .stay _
  | blank => exact stays finish_phase
  | pause => exact .stay _
  | fail => exact stays finish_phase
  | yield => exact stays finish_phase
  | abandon => exact stays (abandon_phase ..)
  | stop hp =>
    have hr : w.phase ≠ .running := hw.closed (by simp [isClosed, hp])
    have hs : w.phase ≠ .stopped := hw.open (by simp [hp])
    rw [stop_phase]
    cases h : w.phase with
    | running => exact absurd h hr
    | shuttingDown => exact .stop
    | stopped => exact absurd h hs

theorem Polled.phase (hp : w.Polled w') : w.phase.Leads w'.phase := by
  cases hp with
  | same => exact .stay _
  | report => exact .stay _
  | begun hs => rw [hs]; exact .shutDown
  | ended hs => rw [hs]; exact .shutDown
  | aborted => exact .stay _

theorem Move.atEnd (hm : w.Move d x) (hp : x.worker.position = .stopped) : x.worker.phase = .stopped := by
  cases hm with
  | close => cases hp
  | take => cases hp
  | @begin p =>
    obtain ⟨h, file, hb⟩ := begin_worker w d p
    rw [hb] at hp
    cases hp
  | hand => cases hp
  | blank => cases hp
  | pause => cases hp
  | fail => cases hp
  | yield => cases hp
  | abandon hc =>
    rw [abandon_position] at hp
    exact absurd (hc.symm.trans hp) nofun
  | stop => exact stop_phase ..

theorem Polled.atEnd (hw : w.Polled w') (he : w.position = .stopped → w.phase = .stopped)
    (hp : w'.position = .stopped) : w'.phase = .stopped := by
  cases hw with
  | same => exact he hp
  | report => exact he hp
  | begun hs => exact absurd (hs.symm.trans (he hp)) nofun
  | ended hs => exact absurd (hs.symm.trans (he hp)) nofun
  | aborted => exact he hp

theorem letGo_polled (w : Worker) (timed : Bool) : w.Polled (w.letGo timed) := by
  unfold letGo
  by_cases hs : w.phase = .running
  · simp only [beginShutdown_of_running hs]
    split
    · exact .begun hs
    · exact .ended hs
  · simp only [beginShutdown_of_not_running hs]
    exact .same

theorem letGo_of_not_running (hs : w.phase ≠ .running) (timed : Bool) : w.letGo timed = w := by
  simp only [letGo, beginShutdown_of_not_running hs]

end Worker

namespace Desk

variable {k₀ k k' : Desk} {d d' : Depot} {a : Happening} {asked : List Request} {n : Nat}

theorem Change.phase (hc : k.Change d k' d') (hw : k.worker.Sound) : k.worker.phase.Leads k'.worker.phase := by
  cases hc with
  | step hm => exact hm.phase hw
  | error hp e => exact (Worker.answered_move hp e).phase hw
  | arrive =>
    show k.worker.phase.Leads (k.worker.finish _).phase
    rw [Worker.finish_phase]
    exact .stay _
  | resume => exact .stay _
  | accept => exact .stay _
  | refuse => exact .stay _
  | polled waits hp => exact hp.phase

theorem Change.atEnd (hc : k.Change d k' d') (he : k.worker.position = .stopped → k.worker.phase = .stopped)
    (hp : k'.worker.position = .stopped) : k'.worker.phase = .stopped := by
  cases hc with
  | step hm => exact hm.atEnd hp
  | error hq e => exact (Worker.answered_move hq e).atEnd hp
  | arrive => cases hp
  | resume => cases hp
  | accept => exact he hp
  | refuse => exact he hp
  | polled waits hw => exact hw.atEnd he hp

theorem happens?_change (h : k.happens? d a = some (k', d')) : k.Change d k' d' := by
  cases a with
  | act a => exact act?_change h
  | drop timed => cases h; exact .polled k.waits (k.worker.letGo_polled timed)
  | timeUp =>
    simp only [happens?] at h
    split at h
    · cases h
    · cases h; exact .polled k.waits .aborted

end Desk

/-! ## Told to give up -/

/-- Somebody waits for the worker to drain its queue, and will tell it to give up. -/
def Wait.isDraining : Wait → Bool
  | draining _ => true
  | _ => false

/-- Somebody waits for the queue and has not asked for a report yet. -/
def Wait.isPatient : Wait → Bool
  | processed _ _ false => true
  | _ => false

/-- A worker is told to give up only after it was shut down. -/
structure Worker.Told (w : Worker) : Prop where
  sound : w.Sound
  aborted : w.aborted = true → w.phase ≠ .running
  ended : w.position = .stopped → w.phase = .stopped

namespace Worker

variable {w w' : Worker} {d : Depot} {p : Parcel} {x : Stride}

theorem begin_aborted (w : Worker) (d : Depot) (p : Parcel) : (w.begin d p).worker.aborted = w.aborted := by
  obtain ⟨h, file, hb⟩ := begin_worker w d p
  rw [hb]

theorem release_aborted (w : Worker) (p : Parcel) : (w.release p).aborted = w.aborted := by
  unfold release
  split <;> rfl

theorem abandon_aborted (w : Worker) (d : Depot) (p : Parcel) : (w.abandon d p).worker.aborted = w.aborted := by
  obtain ⟨h, hw⟩ := forsake_worker w d p
  simp only [abandon, hw, release_aborted]

theorem stop_aborted (w : Worker) (d : Depot) : (w.stop d).worker.aborted = w.aborted := by
  unfold stop
  split <;> rfl

theorem Move.aborted (hm : w.Move d x) : x.worker.aborted = w.aborted := by
  cases hm with
  | close => rfl
  | take => rfl
  | begin => exact begin_aborted ..
  | hand => rfl
  | blank => exact release_aborted ..
  | pause => rfl
  | fail => exact release_aborted ..
  | yield => exact release_aborted ..
  | abandon => exact abandon_aborted ..
  | stop => exact stop_aborted ..

end Worker

namespace Desk

variable {k₀ k k' : Desk} {d d' : Depot} {a : Happening} {asked : List Request} {n : Nat}

/-- A worker is told to give up only after it was shut down, and so are those who wait for it to drain its queue. -/
structure Told (k : Desk) : Prop extends k.worker.Told where
  draining : ∀ x ∈ k.waits, x.isDraining = true → k.worker.phase ≠ .running

end Desk

namespace Worker

variable {w : Worker} {d : Depot}

theorem pollProcessed_told (hw : w.aborted = true → w.phase ≠ .running) (now target deadline : Nat) (reported : Bool) :
    let y := Wait.pollProcessed now w d target deadline reported
    (y.1.aborted = true → y.1.phase ≠ .running) ∧ (y.2.isDraining = true → y.1.phase ≠ .running) := by
  have hv := w.pollProcessed_watched d now target deadline reported
  generalize Wait.pollProcessed now w d target deadline reported = y at hv
  cases hv <;> exact ⟨hw, (absurd · Bool.false_ne_true)⟩

theorem pollStopped_told (hw : w.aborted = true → w.phase ≠ .running) (now deadline : Nat) :
    let y := Wait.pollStopped now w deadline
    (y.1.aborted = true → y.1.phase ≠ .running) ∧ (y.2.isDraining = true → y.1.phase ≠ .running) := by
  unfold Wait.pollStopped Wait.unlessLate
  split
  · exact ⟨hw, (absurd · Bool.false_ne_true)⟩
  · split <;> exact ⟨hw, (absurd · Bool.false_ne_true)⟩

theorem poll_told {x : Wait} (hw : w.aborted = true → w.phase ≠ .running)
    (hx : x.isDraining = true → w.phase ≠ .running) (now : Nat) :
    let y := x.poll now w d
    (y.1.aborted = true → y.1.phase ≠ .running) ∧ (y.2.isDraining = true → y.1.phase ≠ .running) := by
  cases x with
  | begun e =>
    cases e with
    | flush t =>
      simp only [Wait.poll]
      split
      · exact ⟨hw, (absurd · Bool.false_ne_true)⟩
      · exact pollProcessed_told hw ..
    | shutdown =>
      -- only this leads to a wait for the queue to be drained, and only that wait to an abort
      by_cases hs : w.phase = .running
      · simp only [Wait.poll, beginShutdown_of_running hs, Bool.not_true, Bool.false_eq_true, ite_false]
        have hn : Phase.shuttingDown ≠ .running := by decide
        split <;> exact ⟨fun _ => hn, fun _ => hn⟩
      · simp only [Wait.poll, beginShutdown_of_not_running hs, Bool.not_false, ite_true]
        exact ⟨hw, (absurd · Bool.false_ne_true)⟩
    | stopped t => exact pollStopped_told hw ..
  | processed target deadline reported => exact pollProcessed_told hw ..
  | draining deadline =>
    have hs := hx rfl
    simp only [Wait.poll]
    split
    · exact ⟨hw, (absurd · Bool.false_ne_true)⟩
    · split
      · exact ⟨fun _ => hs, (absurd · Bool.false_ne_true)⟩
      · exact ⟨hw, fun _ => hs⟩
  | givingUp =>
    simp only [Wait.poll]
    refine ⟨hw, ?_⟩
    split <;> exact (absurd · Bool.false_ne_true)
  | stopped deadline => exact pollStopped_told hw ..
  | done r => exact ⟨hw, (absurd · Bool.false_ne_true)⟩
  | broken => exact ⟨hw, (absurd · Bool.false_ne_true)⟩

theorem answered_aborted (w : Worker) (d : Depot) (r : Except SendError Unit) :
    (w.answered d r).worker.aborted = w.aborted := by
  unfold answered
  split
  · next hp =>
    cases r with
    | ok u => exact release_aborted ..
    | error e => exact (failed_move hp e).aborted
  · rfl

theorem resumed_aborted (w : Worker) : w.resumed.aborted = w.aborted := by
  unfold resumed
  split <;> rfl

end Worker

namespace Desk

variable {k₀ k k' : Desk} {d d' : Depot} {a : Happening} {asked : List Request} {n : Nat}

theorem offered_aborted (k : Desk) (d : Depot) (e : Envelope) (reason? : Option LossReason) :
    (k.offered d e reason?).1.worker.aborted = k.worker.aborted ∧ (k.offered d e reason?).1.waits = k.waits := by
  unfold offered
  have ho := Worker.enqueue_offered k.worker d e
  generalize k.worker.enqueue d e = x at ho
  cases ho <;> exact ⟨rfl, rfl⟩

theorem act?_told {a : Act} (hl : ∀ m now, a ≠ .look m now) (h : k.act? d a = some (k', d')) :
    k'.worker.aborted = k.worker.aborted ∧ ∀ x ∈ k'.waits, x.isDraining = true → x ∈ k.waits := by
  cases a with
  | step =>
    obtain ⟨x, hx, he⟩ := Option.map_eq_some_iff.mp h
    cases he
    exact ⟨(Worker.step?_move hx).aborted, fun _ hm _ => hm⟩
  | answer r =>
    simp only [act?] at h
    split at h
    · split at h <;> cases h
      exact ⟨Worker.answered_aborted .., fun _ hm _ => hm⟩
    · cases h
  | resume =>
    simp only [act?] at h
    split at h <;> cases h
    exact ⟨Worker.resumed_aborted _, fun _ hm _ => hm⟩
  | offer e reason? =>
    have he : k.offered d e reason? = (k', d') := Option.some.inj h
    have ho := k.offered_aborted d e reason?
    rw [he] at ho
    exact ⟨ho.1, fun _ hm _ => ho.2 ▸ hm⟩
  | call e =>
    cases h
    refine ⟨rfl, fun x hm hx => ?_⟩
    rcases List.mem_append.mp hm with hm | hm
    · exact hm
    · rw [List.mem_singleton.mp hm] at hx
      cases hx
  | look m now => exact absurd rfl (hl m now)

theorem Told.same (ht : k.Told) (hc : k.Change d k' d') (ha : k'.worker.aborted = k.worker.aborted)
    (hw : ∀ x ∈ k'.waits, x.isDraining = true → x ∈ k.waits) : k'.Told := by
  have hp := hc.phase ht.sound
  refine ⟨⟨hc.sound ht.sound, fun h => hp.not_running (ht.aborted (ha ▸ h)), hc.atEnd ht.ended⟩, fun x hx hd => ?_⟩
  exact hp.not_running (ht.draining x (hw x hx hd) hd)

theorem Told.look {m now : Nat} (ht : k.Told) (h : k.act? d (.look m now) = some (k', d')) : k'.Told := by
  have hc := act?_change h
  have hp := hc.phase ht.sound
  obtain ⟨x, hx, he⟩ := Option.map_eq_some_iff.mp h
  cases he
  have hy := Worker.poll_told (d := d) ht.aborted (ht.draining x (List.mem_of_getElem? hx)) now
  refine ⟨⟨hc.sound ht.sound, hy.1, hc.atEnd ht.ended⟩, fun z hz hd => ?_⟩
  rcases List.mem_or_eq_of_mem_set hz with hz | rfl
  · exact hp.not_running (ht.draining z hz hd)
  · exact hy.2 hd

theorem Told.next (ht : k.Told) (h : k.happens? d a = some (k', d')) : k'.Told := by
  have hc := happens?_change h
  have hp := hc.phase ht.sound
  cases a with
  | act a =>
    by_cases hl : ∃ m now, a = .look m now
    · obtain ⟨m, now, rfl⟩ := hl
      exact ht.look h
    · obtain ⟨ha, hw⟩ := act?_told (fun m now he => hl ⟨m, now, he⟩) h
      exact ht.same hc ha hw
  | drop timed =>
    cases h
    by_cases hs : k.worker.phase = .running
    · refine ⟨⟨hc.sound ht.sound, fun _ => ?_, hc.atEnd ht.ended⟩, fun x hx hd => absurd hs (ht.draining x hx hd)⟩
      simp only [Worker.letGo, Worker.beginShutdown_of_running hs]
      split <;> exact nofun
    · rw [Worker.letGo_of_not_running hs]
      exact ht
  | timeUp =>
    simp only [happens?] at h
    split at h
    · cases h
    · next hs =>
      cases h
      exact ⟨⟨hc.sound ht.sound, fun _ => hs, ht.ended⟩, ht.draining⟩

theorem manned_told (settings : Settings) (handling : Handling) (backlog : List (Envelope × Path)) :
    (manned settings handling backlog).Told := by
  have hk := manned_counted settings handling backlog
  refine ⟨⟨hk.sound, fun h => ?_, fun h => ?_⟩, by simp [manned, opened]⟩ <;>
    simp [manned, opened, Worker.withBacklog_eq, Worker.ofSettings] at h

theorem Ran.told (hr : k₀.Ran asked n k) (ht : k₀.Told) : k.Told := by
  induction hr with
  | refl => exact ht
  | next a _ hh ih => exact ih.next hh

end Desk

/-! ## Winding up -/

/-- The end of an envelope that is not sent any more. -/
def Fate.GivenUp : Fate → Prop
  | .delivered => False
  | .failed e => e = .cancelled
  | .abandoned _ => True
  | .kept _ => True

theorem Parcel.interrupted_givenUp (p : Parcel) : p.interrupted.GivenUp := by
  obtain hp | ⟨g, -, hp⟩ := p.interrupted_cases
  · rw [hp]; rfl
  · rw [hp]; trivial

theorem Handling.verdict?_givenUp {h : Handling} {p : Parcel} {n : UInt32} {f : Fate}
    (hv : h.verdict? p n .cancelled = some f) : f.GivenUp := by
  obtain rfl | ⟨g, -, rfl⟩ := verdict?_cases hv
  · rfl
  · trivial

theorem Spilled.fate_givenUp (r : Spilled) : r.fate.GivenUp := by
  cases r <;> trivial

namespace Worker

variable {w : Worker} {d : Depot} {x : Stride} {r? : Option Request}

theorem forsake_givenUp (w : Worker) (d : Depot) (p : Parcel) : (w.forsake d p).1.GivenUp := by
  unfold forsake
  split
  · trivial
  · split
    · trivial
    · exact Spilled.fate_givenUp _

/-- What a worker does by itself that was told to give up, and what it asks for when it does. -/
inductive Winds (w : Worker) (d : Depot) : Option Request → Stride → Prop
  | close (hp : w.position = .idle) : Winds w d none ⟨{ w with position := .closing }, d, none⟩
  | begin {p} (hp : w.position = .taken p) : Winds w d none (w.begin d p)
  | due {p n f d'} (hp : w.position = .due p n) (hf : f.GivenUp) : Winds w d none (w.conclude d' p f)
  | sending {p n out f d'} (hp : w.position = .sending p n out) (hf : f.GivenUp) : Winds w d none (w.conclude d' p f)
  | pausing {p n f d'} (hp : w.position = .pausing p n) (hf : f.GivenUp) : Winds w d none (w.conclude d' p f)
  | abandon {p rest} (hp : w.position = .closing) (hq : w.queue = p :: rest) :
    Winds w d (some (.abandon p)) ({ w with queue := rest }.abandon d p)
  | stop (hp : w.position = .closing) (hq : w.queue = []) : Winds w d (some .stop) (w.stop d)

theorem failed_cancelled (w : Worker) (d : Depot) (p : Parcel) (n : UInt32) :
    ∃ f : Fate, f.GivenUp ∧ w.failed d p n .cancelled = w.conclude d p f := by
  obtain ⟨f, hv⟩ := w.handling.verdict?_cancelled p n
  refine ⟨f, Handling.verdict?_givenUp hv, ?_⟩
  simp only [failed, hv]

theorem winds (ha : w.aborted = true) (hs : w.phase ≠ .running) (hp : w.position ≠ .stopped) (d : Depot) :
    ∃ x, w.step? d = some x ∧ w.Winds d w.request? x := by
  cases hw : w.position with
  | idle =>
    have hn : w.next? = some { w with position := .closing } := if_pos ⟨hs, ha⟩
    simp only [step?, request?, hw, hn]
    exact ⟨_, rfl, .close hw⟩
  | taken p =>
    simp only [step?, request?, hw]
    exact ⟨_, rfl, .begin hw⟩
  | due p n =>
    obtain ⟨f, hf, he⟩ := w.failed_cancelled d p n
    simp only [step?, request?, hw, send, ha, if_true, he]
    exact ⟨_, rfl, .due hw hf⟩
  | sending p n out =>
    obtain ⟨f, hf, he⟩ := w.failed_cancelled (d.failed out .cancelled) p n
    simp only [step?, request?, hw, ha, if_true, he]
    exact ⟨_, rfl, .sending hw hf⟩
  | pausing p n =>
    simp only [step?, request?, hw, ha, if_true]
    exact ⟨_, rfl, .pausing hw p.interrupted_givenUp⟩
  | closing =>
    cases hq : w.queue with
    | nil =>
      simp only [step?, request?, hw, hq]
      exact ⟨_, rfl, .stop hw hq⟩
    | cons p rest =>
      simp only [step?, request?, hw, hq]
      exact ⟨_, rfl, hw ▸ .abandon hw hq⟩
  | stopped => exact absurd hw hp

/-- How many steps it takes a worker at most until it has stopped, once it was told to give up. -/
def stepsLeft (w : Worker) : Nat :=
  match w.position with
  | .taken _ => w.queue.length + 4
  | .due _ _ => w.queue.length + 3
  | .sending _ _ _ => w.queue.length + 3
  | .pausing _ _ => w.queue.length + 3
  | .idle => w.queue.length + 2
  | .closing => w.queue.length + 1
  | .stopped => 0

/-- What a worker has still to ask for, once it was told to give up. -/
def toAsk (w : Worker) : List Request :=
  match w.position with
  | .stopped => []
  | _ => w.queue.map .abandon ++ [.stop]

theorem toAsk_of_not_stopped (hp : w.position ≠ .stopped) : w.toAsk = w.queue.map .abandon ++ [.stop] := by
  unfold toAsk
  split
  · next h => exact absurd h hp
  · rfl

/-- The worker as it is when so many parcels for reports have joined its queue. -/
def joined (w : Worker) (reports : Nat) : Worker :=
  { w with queue := w.queue ++ List.replicate reports Parcel.carrier }

theorem joined_zero (w : Worker) : w.joined 0 = w := by
  simp [joined]

theorem joined_parcels (w : Worker) (reports : Nat) :
    (w.joined reports).parcels = w.parcels ++ List.replicate reports Parcel.carrier := by
  simp [joined, parcels, hand?]

theorem joined_succ {w' : Worker} {asked : List Request} {reports : Nat} (hc : w'.isClosed = false)
    (h : asked ++ w'.toAsk = (w.joined reports).toAsk) :
    asked ++ (w'.pushUnreserved {} none).toAsk = (w.joined (reports + 1)).toAsk := by
  -- neither has stopped: both still ask for what they have queued, and then for the end
  have hp' : w'.position ≠ .stopped := fun hp => by simp [isClosed, hp] at hc
  have hp : w.position ≠ .stopped := fun hp => by
    have hn : (w.joined reports).toAsk = [] := by simp [toAsk, joined, hp]
    rw [hn, toAsk_of_not_stopped hp'] at h
    simp at h
  rw [toAsk_of_not_stopped hp', toAsk_of_not_stopped (w := w.joined reports) hp, ← List.append_assoc] at h
  rw [toAsk_of_not_stopped (w := w'.pushUnreserved {} none) hp', toAsk_of_not_stopped (w := w.joined _) hp]
  have hq := List.append_cancel_right h
  simp only [joined, pushUnreserved, List.map_append, List.replicate_succ', ← List.append_assoc] at hq ⊢
  rw [hq]
  rfl

theorem pushUnreserved_stepsLeft (w : Worker) (e : Envelope) (file : Option Path) :
    (w.pushUnreserved e file).stepsLeft ≤ w.stepsLeft + 1 := by
  cases hp : w.position <;> simp [stepsLeft, pushUnreserved, hp]

theorem Winds.toAsk (hx : w.Winds d r? x) : r?.toList ++ x.worker.toAsk = w.toAsk := by
  cases hx with
  | close hp => simp [Worker.toAsk, hp]
  | @begin p hp =>
    obtain ⟨h, file, hb⟩ := begin_worker w d p
    simp [Worker.toAsk, hb, hp]
  | due hp => simp [Worker.toAsk, conclude_position, conclude_queue, hp]
  | sending hp => simp [Worker.toAsk, conclude_position, conclude_queue, hp]
  | pausing hp => simp [Worker.toAsk, conclude_position, conclude_queue, hp]
  | abandon hp hq => simp [Worker.toAsk, abandon_position, abandon_queue, hp, hq]
  | stop hp hq => simp [Worker.toAsk, stop_position, hp, hq]

theorem Winds.stepsLeft (hx : w.Winds d r? x) : x.worker.stepsLeft + 1 ≤ w.stepsLeft := by
  cases hx with
  | close hp => simp [Worker.stepsLeft, hp]
  | @begin p hp =>
    obtain ⟨h, file, hb⟩ := begin_worker w d p
    simp [Worker.stepsLeft, hb, hp]
  | due hp => simp [Worker.stepsLeft, conclude_position, conclude_queue, hp]
  | sending hp => simp [Worker.stepsLeft, conclude_position, conclude_queue, hp]
  | pausing hp => simp [Worker.stepsLeft, conclude_position, conclude_queue, hp]
  | abandon hp hq => simp [Worker.stepsLeft, abandon_position, abandon_queue, hp, hq]
  | stop hp => simp [Worker.stepsLeft, stop_position, hp]

theorem Winds.settled (hx : w.Winds d r? x) : ∀ y ∈ x.settled.toList, y.2.GivenUp := by
  cases hx with
  | close => simp
  | begin => simp [begin_settled]
  | due hp hf => simpa [conclude] using hf
  | sending hp hf => simpa [conclude] using hf
  | pausing hp hf => simpa [conclude] using hf
  | abandon => simpa [abandon_settled] using forsake_givenUp ..
  | stop => simp [stop_settled]

theorem Winds.sending? (hx : w.Winds d r? x) : x.worker.sending? = none := by
  cases hx with
  | close => rfl
  | @begin p hp =>
    obtain ⟨h, file, hb⟩ := begin_worker w d p
    rw [hb]
    rfl
  | due => rfl
  | sending => rfl
  | pausing => rfl
  | abandon hp => simp [Worker.sending?, abandon_position, hp]
  | stop => simp [Worker.sending?, stop_position]

end Worker

/-! ## At a desk -/

namespace Worker

variable {w : Worker} {x : Wait}

/-- What those who wait do to a worker that was told to give up: nothing, or one of them asks for a report. -/
inductive Lulled (w : Worker) (x : Wait) : Worker × Wait → Prop
  | quiet {y} (hy : y.isPatient = true → x.isPatient = true) : Lulled w x (w, y)
  | report {y} (hc : w.isClosed = false) (hx : x.isPatient = true) (hy : y.isPatient = false) :
    Lulled w x (w.pushUnreserved {} none, y)

theorem Lulled.settle {y : Wait} (hy : y.isPatient = false) : w.Lulled x (w, y) :=
  .quiet fun h => absurd (hy.symm.trans h) Bool.false_ne_true

theorem pollStopped_lulled (w : Worker) (x : Wait) (now deadline : Nat) :
    w.Lulled x (Wait.pollStopped now w deadline) := by
  unfold Wait.pollStopped Wait.unlessLate
  split
  · exact .settle rfl
  · split <;> exact .settle rfl

theorem poll_lulled (ha : w.aborted = true) (hs : w.phase ≠ .running) (x : Wait) (now : Nat) (d : Depot) :
    w.Lulled x (x.poll now w d) := by
  cases x with
  | begun e =>
    cases e with
    | flush t =>
      simp only [Wait.poll, if_pos hs]
      exact .settle rfl
    | shutdown =>
      simp only [Wait.poll, beginShutdown_of_not_running hs, Bool.not_false, ite_true]
      exact .settle rfl
    | stopped t => exact pollStopped_lulled ..
  | processed target deadline reported =>
    have hv := w.pollProcessed_watched d now target deadline reported
    simp only [Wait.poll]
    generalize Wait.pollProcessed now w d target deadline reported = y at hv
    cases hv with
    | reached => exact .settle rfl
    | quiet => exact .settle rfl
    | reports ht hr => exact .report hr.2.2 rfl rfl
    | tooLate ht hr => exact .report hr.2.2 rfl rfl
    | waits => exact .quiet id
    | broken => exact .settle rfl
    | late => exact .settle rfl
  | draining deadline =>
    have hw : w.abort = w := by simp [abort, ← ha]
    simp only [Wait.poll, hw]
    split
    · exact .settle rfl
    · split <;> exact .settle rfl
  | givingUp =>
    simp only [Wait.poll]
    split <;> exact .settle rfl
  | stopped deadline => exact pollStopped_lulled ..
  | done r => exact .settle rfl
  | broken => exact .settle rfl

end Worker

namespace Desk

variable {k₀ k k' : Desk} {d d' : Depot} {a : Happening} {asked : List Request} {n : Nat}

/-- How many steps there are at most until the worker has stopped. Everybody who waits may still ask for a report. -/
def effort (k : Desk) : Nat := k.worker.stepsLeft + k.waits.countP Wait.isPatient

/-- What happens at the desk of a worker that was told to give up. -/
inductive Ebbs (k : Desk) (d : Depot) : Happening → Desk → Prop
  | step {x} (hm : k.worker.Move d x) (hx : k.worker.Winds d k.worker.request? x) :
    Ebbs k d (.act .step) (k.moved x)
  | stay {a : Happening} {k' : Desk} (hn : a ≠ .act .step) (hw : k'.worker = k.worker) (hh : k'.handed = k.handed)
    (ha : k'.answers = k.answers) (hs : k'.settled = k.settled)
    (hp : k'.waits.countP Wait.isPatient ≤ k.waits.countP Wait.isPatient) : Ebbs k d a k'
  | report {a : Happening} {k' : Desk} (hn : a ≠ .act .step) (hc : k.worker.isClosed = false)
    (hw : k'.worker = k.worker.pushUnreserved {} none) (hh : k'.handed = k.handed)
    (ha : k'.answers = k.answers) (hs : k'.settled = k.settled)
    (hp : k'.waits.countP Wait.isPatient < k.waits.countP Wait.isPatient) : Ebbs k d a k'

theorem offered_disposed (hs : k.worker.phase ≠ .running) (d : Depot) (e : Envelope) (reason? : Option LossReason) :
    (k.offered d e reason?).1 = { k with refused := k.refused ++ [(e, reason?)] } := by
  simp only [offered, Worker.enqueue_disposed hs]

theorem patient_set {waits : List Wait} {m : Nat} {x : Wait} (h : waits[m]? = some x) (y : Wait) :
    (waits.set m y).countP Wait.isPatient + x.isPatient.toNat =
      waits.countP Wait.isPatient + y.isPatient.toNat := by
  obtain ⟨hm, rfl⟩ := List.getElem?_eq_some_iff.mp h
  have hpos : waits[m].isPatient = true → 0 < waits.countP Wait.isPatient := fun hp =>
    List.countP_pos_iff.mpr ⟨_, List.getElem_mem hm, hp⟩
  rw [List.countP_set hm]
  cases hx : waits[m].isPatient with
  | false => cases y.isPatient <;> simp
  | true =>
    have := hpos hx
    cases y.isPatient <;> simp <;> omega

theorem look_ebbs {m now : Nat} (ha : k.worker.aborted = true) (hs : k.worker.phase ≠ .running)
    (h : k.act? d (.look m now) = some (k', d')) : k.Ebbs d (.act (.look m now)) k' := by
  obtain ⟨x, hx, he⟩ := Option.map_eq_some_iff.mp h
  have hy := Worker.poll_lulled ha hs x now d
  generalize x.poll now k.worker d = z at hy he
  cases hy with
  | @quiet y hy =>
    cases he
    refine .stay nofun rfl rfl rfl rfl ?_
    have hc := patient_set hx y
    have hle : y.isPatient.toNat ≤ x.isPatient.toNat := by
      revert hy
      cases y.isPatient <;> cases x.isPatient <;> decide
    show (k.waits.set m y).countP _ ≤ _
    omega
  | @report y hc hxp hyp =>
    cases he
    refine .report nofun hc rfl rfl rfl rfl ?_
    have hc := patient_set hx y
    simp only [hxp, hyp, Bool.toNat_true, Bool.toNat_false] at hc
    show (k.waits.set m y).countP _ < _
    omega

theorem Told.ebbs (ht : k.Told) (ha : k.worker.aborted = true) (h : k.happens? d a = some (k', d')) :
    k.Ebbs d a k' := by
  have hs := ht.aborted ha
  cases a with
  | drop timed =>
    cases h
    exact .stay (by simp) (Worker.letGo_of_not_running hs timed) rfl rfl rfl (Nat.le_refl _)
  | timeUp =>
    simp only [happens?, if_neg hs] at h
    cases h
    exact .stay (by simp) (by simp [Worker.abort, ← ha]) rfl rfl rfl (Nat.le_refl _)
  | act a =>
    cases a with
    | step =>
      obtain ⟨x, hx, he⟩ := Option.map_eq_some_iff.mp h
      cases he
      have hp : k.worker.position ≠ .stopped := by
        intro hp
        simp [Worker.step?, hp] at hx
      -- there is one step at most, and it winds up
      obtain ⟨x', hx', hw⟩ := Worker.winds ha hs hp d
      cases hx'.symm.trans hx
      exact .step (Worker.step?_move hx) hw
    | answer r =>
      simp only [happens?, act?, ha, if_true] at h
      split at h <;> cases h
    | resume => simp [happens?, act?, ha] at h
    | offer e reason? =>
      have he : k.offered d e reason? = (k', d') := Option.some.inj h
      have hk := k.offered_disposed hs d e reason?
      rw [he] at hk
      subst hk
      exact .stay (by simp) rfl rfl rfl rfl (Nat.le_refl _)
    | call e =>
      cases h
      refine .stay (by simp) rfl rfl rfl rfl ?_
      simp [Wait.isPatient]
    | look m now => exact look_ebbs ha hs h

/-- What has become of a desk when this was asked for in so many steps since its worker was told to give up. -/
structure GivesUp (k : Desk) (asked : List Request) (n : Nat) (k' : Desk) : Prop where
  aborted : k'.worker.aborted = true
  /-- No send is begun, and none comes to an end. -/
  handed : k'.handed = k.handed
  answers : k'.answers = k.answers
  /-- So many steps are left at most, and there is a next one until the worker has stopped. -/
  effort : n + k'.effort ≤ k.effort
  goes : k'.worker.phase ≠ .stopped → ∀ d, (k'.worker.step? d).isSome = true
  /-- What is queued is given away in its order, with what was made for reports since then at its end, and then the
  worker stops. What it is done with since then has come to an end unsent, in the same order. -/
  ends : ∃ reports since,
    asked ++ k'.worker.toAsk = (k.worker.joined reports).toAsk ∧
    k'.settled = k.settled ++ since ∧
    (∀ x ∈ since, x.2.GivenUp) ∧
    (since.map Prod.fst ++ k'.worker.parcels).map Parcel.label = (k.worker.joined reports).parcels.map Parcel.label

theorem Told.goes (ht : k.Told) (ha : k.worker.aborted = true) (hs : k.worker.phase ≠ .stopped) (d : Depot) :
    (k.worker.step? d).isSome = true := by
  obtain ⟨x, hx, -⟩ := Worker.winds ha (ht.aborted ha) (fun hp => hs (ht.ended hp)) d
  rw [hx]
  rfl

theorem GivesUp.refl (ht : k.Told) (ha : k.worker.aborted = true) : k.GivesUp [] 0 k where
  aborted := ha
  handed := rfl
  answers := rfl
  effort := by omega
  goes hs d := ht.goes ha hs d
  ends := ⟨0, [], by simp [Worker.joined_zero], by simp, by simp, by simp [Worker.joined_zero]⟩

theorem GivesUp.step {d : Depot} {x : Stride} (hg : k₀.GivesUp asked n k) (ht : (k.moved x).Told)
    (hm : k.worker.Move d x) (hx : k.worker.Winds d k.worker.request? x) :
    k₀.GivesUp (asked ++ k.worker.request?.toList) (n + 1) (k.moved x) where
  aborted := hm.aborted.trans hg.aborted
  handed := by simp [moved, hx.sending?, hg.handed]
  answers := hg.answers
  effort := by
    have hs := hx.stepsLeft
    have he := hg.effort
    simp only [Desk.effort, moved] at he ⊢
    omega
  goes hs d := ht.goes (hm.aborted.trans hg.aborted) hs d
  ends := by
    obtain ⟨reports, since, hasked, hsettled, hgiven, hl⟩ := hg.ends
    refine ⟨reports, since ++ x.settled.toList, ?_, ?_, ?_, ?_⟩
    · rw [List.append_assoc, show (k.moved x).worker = x.worker from rfl, hx.toAsk, hasked]
    · rw [← List.append_assoc, ← hsettled]
      rfl
    · exact List.forall_mem_append.mpr ⟨hgiven, hx.settled⟩
    · have hm := hm.labels
      simp only [List.map_append, List.append_assoc] at hm hl ⊢
      rw [← hl, show (k.moved x).worker = x.worker from rfl, hm]

theorem GivesUp.stay (hg : k₀.GivesUp asked n k) (hw : k'.worker = k.worker) (hh : k'.handed = k.handed)
    (ha : k'.answers = k.answers) (hs : k'.settled = k.settled)
    (hp : k'.waits.countP Wait.isPatient ≤ k.waits.countP Wait.isPatient) : k₀.GivesUp asked n k' where
  aborted := by rw [hw]; exact hg.aborted
  handed := hh.trans hg.handed
  answers := ha.trans hg.answers
  effort := by
    have he := hg.effort
    simp only [Desk.effort, hw] at he ⊢
    omega
  goes := by rw [hw]; exact hg.goes
  ends := by rw [hw, hs]; exact hg.ends

theorem GivesUp.report (hg : k₀.GivesUp asked n k) (ht : k'.Told) (hc : k.worker.isClosed = false)
    (hw : k'.worker = k.worker.pushUnreserved {} none) (hh : k'.handed = k.handed)
    (ha : k'.answers = k.answers) (hs : k'.settled = k.settled)
    (hp : k'.waits.countP Wait.isPatient < k.waits.countP Wait.isPatient) : k₀.GivesUp asked n k' where
  aborted := by rw [hw]; exact hg.aborted
  handed := hh.trans hg.handed
  answers := ha.trans hg.answers
  effort := by
    have he := hg.effort
    have hq := k.worker.pushUnreserved_stepsLeft {} none
    simp only [Desk.effort, hw] at he ⊢
    omega
  goes hs d := ht.goes (by rw [hw]; exact hg.aborted) hs d
  ends := by
    obtain ⟨reports, since, hasked, hsettled, hgiven, hl⟩ := hg.ends
    refine ⟨reports + 1, since, ?_, hs.trans hsettled, hgiven, ?_⟩
    · rw [hw]
      exact Worker.joined_succ hc hasked
    · rw [Worker.joined_parcels] at hl ⊢
      rw [hw, Worker.pushUnreserved_parcels, ← List.append_assoc, List.map_append, hl, List.replicate_succ',
        ← List.append_assoc]
      exact List.map_append.symm

theorem GivesUp.next (hg : k₀.GivesUp asked n k) (ht : k.Told) (h : k.happens? d a = some (k', d')) :
    k₀.GivesUp (asked ++ k.requested a) (n + a.steps) k' := by
  have ht' := ht.next h
  -- only a step of the worker itself asks for something and counts
  have quiet (hn : a ≠ .act .step) : asked ++ k.requested a = asked ∧ n + a.steps = n := by
    cases a with
    | act a => cases a <;> first | exact absurd rfl hn | exact ⟨List.append_nil _, rfl⟩
    | drop => exact ⟨List.append_nil _, rfl⟩
    | timeUp => exact ⟨List.append_nil _, rfl⟩
  cases ht.ebbs hg.aborted h with
  | step hm hx => exact hg.step ht' hm hx
  | stay hn hw hh ha hs hp =>
    rw [(quiet hn).1, (quiet hn).2]
    exact hg.stay hw hh ha hs hp
  | report hn hc hw hh ha hs hp =>
    rw [(quiet hn).1, (quiet hn).2]
    exact hg.report ht' hc hw hh ha hs hp

theorem GivesUp.of_ran (ht : k₀.Told) (ha : k₀.worker.aborted = true) (hr : k₀.Ran asked n k) :
    k₀.GivesUp asked n k := by
  induction hr with
  | refl => exact .refl ht ha
  | next a hr hh ih => exact ih.next (hr.told ht) hh

end Desk

theorem Desk.GivesUp.asked {k k' : Desk} {asked : List Request} {n : Nat} (hg : k.GivesUp asked n k') (ht : k.Told)
    (ht' : k'.Told) (hs : k.worker.phase ≠ .stopped) (hs' : k'.worker.phase = .stopped) :
    ∃ reports, asked = (k.worker.queue ++ List.replicate reports Parcel.carrier).map .abandon ++ [.stop] := by
  obtain ⟨reports, since, h, -⟩ := hg.ends
  have hp : (k.worker.joined reports).position ≠ .stopped := fun hp => hs (ht.ended hp)
  have hn : k'.worker.toAsk = [] := by simp [Worker.toAsk, ht'.sound.stopped hs']
  rw [hn, List.append_nil, Worker.toAsk_of_not_stopped hp] at h
  exact ⟨reports, h⟩

/-! ## From the start -/

namespace Desk

variable {k₀ k k' : Desk} {d d' : Depot} {a : Happening} {asked : List Request} {n : Nat}

/-- A desk that is closed to those who offer. -/
structure Refuses (k k' : Desk) : Prop where
  phase : k'.worker.phase ≠ .running
  accepted : k'.accepted = k.accepted
  disposed : ∀ d e, k'.worker.enqueue d e = (.error .disposed, k'.worker, d)

theorem Change.accepted (hc : k.Change d k' d') (hs : k.worker.phase ≠ .running) : k'.accepted = k.accepted := by
  cases hc with
  | accept h => exact absurd h hs
  | _ => rfl

theorem Refuses.of_ran (ht : k₀.Told) (hs : k₀.worker.phase ≠ .running) (hr : k₀.Ran asked n k) : k₀.Refuses k := by
  induction hr with
  | refl => exact ⟨hs, rfl, Worker.enqueue_disposed hs⟩
  | next a hr hh ih =>
    have hc := happens?_change hh
    have hp := (hc.phase (hr.told ht).sound).not_running ih.phase
    exact ⟨hp, (hc.accepted ih.phase).trans ih.accepted, Worker.enqueue_disposed hp⟩

/-- Whatever a worker starts with, whatever is done with each envelope and whatever happens: a worker is running, then
shuts down, then has stopped, and from the shutdown on nothing is accepted. It is told to give up only when it was shut
down; from then on it begins no send, what it has in hand ends unsent, what is queued is given away once and in its
order, and then the worker stops, after a number of steps that was known when it was told. -/
theorem gives_up {settings : Settings} {handling : Handling} {backlog : List (Envelope × Path)} {asked₀ : List Request}
    {n₀ : Nat} (hr : (manned settings handling backlog).Ran asked₀ n₀ k) :
    (∀ a d k' d', k.happens? d a = some (k', d') → k.worker.phase.Leads k'.worker.phase) ∧
    (k.worker.phase ≠ .running → ∀ asked n k', k.Ran asked n k' → k.Refuses k') ∧
    (k.worker.aborted = true → k.worker.phase ≠ .running ∧ ∀ asked n k', k.Ran asked n k' → k.GivesUp asked n k' ∧
      (k.worker.phase ≠ .stopped → k'.worker.phase = .stopped → ∃ reports,
        asked = (k.worker.queue ++ List.replicate reports Parcel.carrier).map .abandon ++ [.stop])) := by
  have ht := hr.told (manned_told settings handling backlog)
  refine ⟨fun a d k' d' h => ?_, fun hs asked n k' h => ?_, fun ha => ⟨ht.aborted ha, fun asked n k' h => ?_⟩⟩
  · exact (happens?_change h).phase ht.sound
  · exact .of_ran ht hs h
  · have hg : k.GivesUp asked n k' := .of_ran ht ha h
    exact ⟨hg, hg.asked ht (h.told ht)⟩

/-- What is done with each envelope by a worker that has no room for files. -/
def unfiled : Handling := .durable { claim := { dir := ⟨"cache"⟩ }, enabled := false, capacity := 1 } .standard

/-- A flush is called for when the first of two envelopes is queued. Its send fails, and the shutdown has no patience
for the next one. -/
def hurriedRun : List Happening :=
  [.act (.offer (.ofEvent "a" (.str "")) none), .act (.call (.flush (.ofSeconds 60))), .act (.look 0 0),
    .act (.offer (.ofEvent "b" (.str "")) none), .act .step, .act .step, .act .step,
    .act (.answer (.error (.transient ""))), .act (.call .shutdown), .act (.look 1 0), .act (.look 1 2000)]

/-- The first envelope is lost, the flush asks for a report of that, and neither it nor the second one is sent. -/
def unsentRun : List Happening := [.act .step, .act (.look 0 2000), .act .step, .act .step, .act .step, .act .step]

theorem gives_up_hurried :
    ∃ asked₀ n₀ k asked n k',
      (manned .standard unfiled []).Ran asked₀ n₀ k ∧ k.worker.isPausing = true ∧ k.worker.queue.length = 1 ∧
      k.Ran asked n k' ∧ asked.length = 3 ∧ k'.worker.phase = .stopped ∧ k'.handed.length = 1 ∧
      k.worker.phase ≠ .running ∧ k.Refuses k' ∧ k.GivesUp asked n k' ∧
      ∃ reports, asked = (k.worker.queue ++ List.replicate reports Parcel.carrier).map .abandon ++ [.stop] := by
  have hrun : (((manned .standard unfiled []).trace? {} hurriedRun).bind fun x =>
      (x.2.1.trace? x.2.2 unsentRun).map fun y =>
        (x.2.1.worker.isPausing, x.2.1.worker.queue.length, x.2.1.worker.aborted, y.1.length, y.2.1.worker.phase,
          y.2.1.handed.length)) = some (true, 1, true, 3, .stopped, 1) := by decide +kernel
  obtain ⟨⟨asked₀, k, d⟩, hk, hx⟩ := Option.bind_eq_some_iff.mp hrun
  obtain ⟨⟨asked, k', d'⟩, hk', hy⟩ := Option.map_eq_some_iff.mp hx
  simp only [Prod.mk.injEq] at hy
  obtain ⟨hpausing, hqueue, haborted, hasked, hphase, hhanded⟩ := hy
  have hr := Ran.of_trace? hk
  have hr' := Ran.of_trace? hk'
  obtain ⟨-, hrefuses, hgives⟩ := gives_up hr
  obtain ⟨hs, hgives⟩ := hgives haborted
  obtain ⟨hg, hends⟩ := hgives asked _ k' hr'
  have hopen : k.worker.phase ≠ .stopped := fun h => by
    have hp := (hr.told (manned_told ..)).sound.stopped h
    simp [Worker.isPausing, hp] at hpausing
  exact ⟨asked₀, _, k, asked, _, k', hr, hpausing, hqueue, hr', hasked, hphase, hhanded, hs,
    hrefuses hs asked _ k' hr', hg, hends hopen hphase⟩

end Desk

end Courier

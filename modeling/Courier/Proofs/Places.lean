import Courier.Proofs.Queue

/-!
# The counters of the queue

A worker counts its queue as it goes and never looks at the list again: filled places, what takes no place, what was
ever put in and what is done with. All four counters agree with the list, whatever is done with the envelope in hand.
-/

namespace Courier

namespace Desk

/-- What happens next at a desk, whatever happens elsewhere, and however the worker handles what it has in hand. -/
inductive Next (k : Desk) : Desk → Prop
  | act {k' d d'} (a : Act) (h : k.act? d a = some (k', d')) : Next k k'
  | handled {p} (f : Fate) (hp : k.worker.hand? = some p) :
    Next k { k with worker := k.worker.finish p, settled := k.settled ++ [(p, f)] }
  | forsaken {p rest} (f : Fate) (hp : k.worker.position = .closing) (hq : k.worker.queue = p :: rest) :
    Next k { k with worker := { k.worker with queue := rest }.release p, settled := k.settled ++ [(p, f)] }

/-- What comes about at a desk by and by. -/
inductive Course (first : Desk) : Desk → Prop
  | refl : Course first first
  | next {k k' : Desk} (hc : Course first k) (hn : k.Next k') : Course first k'

theorem Course.trans {k₀ k k' : Desk} (hc : k₀.Course k) (hc' : k.Course k') : k₀.Course k' := by
  induction hc' with
  | refl => exact hc
  | next _ hn ih => exact .next ih hn

def acts? (k : Desk) (d : Depot) (as : List Act) : Option (Desk × Depot) :=
  as.foldlM (fun x a => x.1.act? x.2 a) (k, d)

theorem Course.of_acts? {as : List Act} : ∀ {k k' : Desk} {d d' : Depot}, k.acts? d as = some (k', d') →
    k.Course k' := by
  induction as with
  | nil =>
    intro k k' d d' h
    cases h
    exact .refl
  | cons a as ih =>
    intro k k' d d' h
    obtain ⟨⟨k₁, d₁⟩, ha, h⟩ := Option.bind_eq_some_iff.mp (by simpa [acts?] using h)
    exact (Course.refl.next (.act a ha)).trans (ih h)

end Desk

namespace Worker

variable {w w' : Worker} {d : Depot} {p : Parcel}

/-! ## Counters -/

/-- How many places there are, how many are filled, how much takes none, how much was put in and is done with. -/
def counters (w : Worker) : Nat × Nat × Nat × Nat × Nat :=
  (w.capacity, w.queued, w.unreserved, w.accepted, w.processed)

/-- The counters agree with what is not done with. -/
structure Counted (w : Worker) : Prop where
  queued : w.queued = w.parcels.countP (·.reserved)
  unreserved : w.unreserved = w.parcels.countP (!·.reserved)
  accepted : w.accepted = w.processed + w.parcels.length
  room : w.queued ≤ w.capacity

theorem countP_label (f : Envelope × Bool → Bool) {ps qs : List Parcel}
    (h : ps.map Parcel.label = qs.map Parcel.label) :
    ps.countP (fun p => f p.label) = qs.countP (fun p => f p.label) := by
  have hf (l : List Parcel) : l.countP (fun p => f p.label) = (l.map Parcel.label).countP f := by
    rw [List.countP_map]
    rfl
  rw [hf, hf, h]

theorem length_label {ps qs : List Parcel} (h : ps.map Parcel.label = qs.map Parcel.label) :
    ps.length = qs.length := by
  simpa using congrArg List.length h

theorem Counted.of_labels (hw : w.Counted) (hc : w'.counters = w.counters)
    (hl : w'.parcels.map Parcel.label = w.parcels.map Parcel.label) : w'.Counted := by
  simp only [counters, Prod.mk.injEq] at hc
  obtain ⟨hcap, hq, hu, ha, hp⟩ := hc
  refine ⟨?_, ?_, ?_, ?_⟩
  · rw [hq, hw.queued]
    exact (countP_label (·.2) hl).symm
  · rw [hu, hw.unreserved]
    exact (countP_label (!·.2) hl).symm
  · rw [ha, hp, hw.accepted, length_label hl]
  · rw [hq, hcap]
    exact hw.room

theorem Counted.release (hw : w.Counted) (hc : w'.counters = (w.release p).counters)
    (hl : (p :: w'.parcels).map Parcel.label = w.parcels.map Parcel.label) : w'.Counted := by
  have hq := hw.queued.trans (countP_label (·.2) hl).symm
  have hu := hw.unreserved.trans (countP_label (!·.2) hl).symm
  have ha := hw.accepted
  have hr := hw.room
  rw [← length_label hl, List.length_cons] at ha
  simp only [Parcel.label, List.countP_cons] at hq hu
  unfold Worker.release at hc
  cases hp : p.reserved with
  | true =>
    simp only [hp, counters, ite_true, Prod.mk.injEq, Bool.not_true, Bool.false_eq_true, ite_false] at hc hq hu
    exact ⟨by omega, by omega, by omega, by omega⟩
  | false =>
    simp only [hp, counters, ite_true, Prod.mk.injEq, Bool.not_false, Bool.false_eq_true, ite_false] at hc hq hu
    exact ⟨by omega, by omega, by omega, by omega⟩

theorem Counted.pushUnreserved (hw : w.Counted) (e : Envelope) (file : Option Path) :
    (w.pushUnreserved e file).Counted := by
  have hq := hw.queued
  have hu := hw.unreserved
  have ha := hw.accepted
  refine ⟨?_, ?_, ?_, hw.room⟩ <;> rw [pushUnreserved_parcels] <;> simp [Worker.pushUnreserved] <;> omega

theorem Counted.pushReserved (hw : w.Counted) (e : Envelope) (hr : w.queued < w.capacity) :
    (w.pushReserved e).Counted := by
  have hq := hw.queued
  have hu := hw.unreserved
  have ha := hw.accepted
  refine ⟨?_, ?_, ?_, hr⟩ <;> rw [pushReserved_parcels] <;> simp [Worker.pushReserved] <;> omega

theorem finish_counters : (w.finish p).counters = (w.release p).counters := rfl

theorem abandon_counters (w : Worker) (d : Depot) (p : Parcel) :
    (w.abandon d p).worker.counters = (w.release p).counters := by
  obtain ⟨h, hw⟩ := forsake_worker w d p
  simp only [abandon, hw, release, counters]
  cases p.reserved <;> rfl

theorem stop_counters (w : Worker) (d : Depot) : (w.stop d).worker.counters = w.counters := by
  unfold stop
  split <;> rfl

theorem begin_counters (w : Worker) (d : Depot) (p : Parcel) : (w.begin d p).worker.counters = w.counters := by
  obtain ⟨h, file, hb⟩ := begin_worker w d p
  rw [hb]
  rfl

/-- What is done with is counted out, and no other move counts. -/
theorem Move.counters {x : Stride} (hm : w.Move d x) :
    (x.settled = none ∧ x.worker.counters = w.counters) ∨
      ∃ p f, x.settled = some (p, f) ∧ x.worker.counters = (w.release p).counters := by
  cases hm with
  | close => exact .inl ⟨rfl, rfl⟩
  | take => exact .inl ⟨rfl, rfl⟩
  | begin => exact .inl ⟨begin_settled, begin_counters ..⟩
  | hand => exact .inl ⟨rfl, rfl⟩
  | blank => exact .inr ⟨_, _, rfl, finish_counters⟩
  | pause => exact .inl ⟨rfl, rfl⟩
  | fail => exact .inr ⟨_, _, rfl, finish_counters⟩
  | yield => exact .inr ⟨_, _, rfl, finish_counters⟩
  | @abandon p rest =>
    refine .inr ⟨p, _, abandon_settled, (abandon_counters ..).trans ?_⟩
    simp only [release, Worker.counters]
    cases p.reserved <;> rfl
  | stop => exact .inl ⟨stop_settled, stop_counters ..⟩

end Worker

/-! ## Progress at a desk -/

namespace Desk

variable {k₀ k k' : Desk} {d d' : Depot}

/-- How the parcels and the counters of a desk change. -/
inductive Progress (k k' : Desk) : Prop
  | stay (hc : k'.worker.counters = k.worker.counters)
    (hl : k'.worker.parcels.map Parcel.label = k.worker.parcels.map Parcel.label) (hs : k'.settled = k.settled)
    (ha : k'.accepted = k.accepted)
  | settle (p : Parcel) (f : Fate) (hc : k'.worker.counters = (k.worker.release p).counters)
    (hl : (p :: k'.worker.parcels).map Parcel.label = k.worker.parcels.map Parcel.label)
    (hs : k'.settled = k.settled ++ [(p, f)]) (ha : k'.accepted = k.accepted)
  | report (hw : k'.worker = k.worker.pushUnreserved {} none) (hs : k'.settled = k.settled)
    (ha : k'.accepted = k.accepted)
  | accept (e : Envelope) (hr : k.worker.queued < k.worker.capacity) (hw : k'.worker = k.worker.pushReserved e)
    (hs : k'.settled = k.settled) (ha : k'.accepted = k.accepted ++ [e])

theorem moved_progress {x : Stride} (hm : k.worker.Move d x) (hw : k'.worker = x.worker)
    (hs : k'.settled = k.settled ++ x.settled.toList) (ha : k'.accepted = k.accepted) : k.Progress k' := by
  have hl := hm.labels
  rcases hm.counters with ⟨hx, hc⟩ | ⟨p, f, hx, hc⟩
  · rw [hx] at hl hs
    exact .stay (hw ▸ hc) (by rw [hw]; exact hl) (by simpa using hs) ha
  · rw [hx] at hl hs
    exact .settle p f (hw ▸ hc) (by rw [hw]; exact hl) hs ha

theorem finish_progress {p : Parcel} (f : Fate) (hp : k.worker.hand? = some p) (hw : k'.worker = k.worker.finish p)
    (hs : k'.settled = k.settled ++ [(p, f)]) (ha : k'.accepted = k.accepted) : k.Progress k' := by
  refine .settle p f (hw ▸ Worker.finish_counters) ?_ hs ha
  rw [hw, Worker.parcels_of_hand hp]
  simp [Worker.parcels, Worker.hand?, Worker.finish]

theorem Change.progress (hc : k.Change d k' d') : k.Progress k' := by
  cases hc with
  | step hm => exact moved_progress hm rfl rfl rfl
  | error hp e => exact moved_progress (Worker.answered_move hp e) rfl rfl rfl
  | @arrive p _ _ hp => exact finish_progress (p := p) .delivered (by simp [Worker.hand?, hp]) rfl rfl rfl
  | resume hp => exact .stay rfl (by simp [Worker.parcels, Worker.hand?, hp]) rfl rfl
  | @accept e hs he hr => exact .accept e hr rfl rfl rfl
  | refuse => exact .stay rfl rfl rfl rfl
  | polled waits hw =>
    cases hw with
    | same => exact .stay rfl rfl rfl rfl
    | report => exact .report rfl rfl rfl
    | begun => exact .stay rfl rfl rfl rfl
    | ended => exact .stay rfl rfl rfl rfl
    | aborted => exact .stay rfl rfl rfl rfl

theorem Next.progress (hn : k.Next k') : k.Progress k' := by
  cases hn with
  | act a h => exact (act?_change h).progress
  | handled f hp => exact finish_progress f hp rfl rfl rfl
  | @forsaken p rest f hp hq =>
    have hh : k.worker.hand? = none := by simp [Worker.hand?, hp]
    refine .settle p f ?_ ?_ rfl rfl
    · simp only [Worker.release, Worker.counters]
      cases p.reserved <;> rfl
    · rw [Worker.parcels_of_no_hand hh, hq]
      simp [Worker.parcels, Worker.hand?, hp]

theorem Next.sound (hn : k.Next k') (hw : k.worker.Sound) : k'.worker.Sound := by
  cases hn with
  | act a h => exact (act?_change h).sound hw
  | handled f hp =>
    refine Worker.sound_of_open rfl ?_
    rw [Worker.finish_phase]
    exact hw.open fun h => by simp [Worker.hand?, h] at hp
  | @forsaken p rest f hp hq =>
    refine ⟨fun _ => ?_, fun h => ?_, fun h => ?_⟩
    · rw [Worker.release_phase]
      exact hw.closed (by simp [Worker.isClosed, hp])
    · rw [Worker.release_phase] at h
      exact (hw.open (by simp [hp]) h).elim
    · simp [hp] at h

theorem Next.backlog (hn : k.Next k') : k'.backlog = k.backlog := by
  cases hn with
  | act a h => exact (act?_change h).backlog
  | handled => rfl
  | forsaken => rfl

theorem Progress.parcels (h : k.Progress k') :
    ∃ more, k'.parcels.map Parcel.label = (k.parcels ++ more).map Parcel.label ∧
      ((more = [] ∧ k'.accepted = k.accepted) ∨ (more = [⟨{}, none, false⟩] ∧ k'.accepted = k.accepted) ∨
        ∃ e, more = [⟨e, none, true⟩] ∧ k'.accepted = k.accepted ++ [e]) := by
  cases h with
  | stay hc hl hs ha =>
    refine ⟨[], ?_, .inl ⟨rfl, ha⟩⟩
    simp only [Desk.parcels, hs, List.append_nil, List.map_append, hl]
  | settle p f hc hl hs ha =>
    refine ⟨[], ?_, .inl ⟨rfl, ha⟩⟩
    simp only [Desk.parcels, hs, List.append_nil, List.map_append, ← hl]
    simp
  | report hw hs ha =>
    refine ⟨_, ?_, .inr (.inl ⟨rfl, ha⟩)⟩
    simp only [Desk.parcels, hs, hw, Worker.pushUnreserved_parcels, List.append_assoc]
  | accept e hr hw hs ha =>
    refine ⟨_, ?_, .inr (.inr ⟨e, rfl, ha⟩)⟩
    simp only [Desk.parcels, hs, hw, Worker.pushReserved_parcels, List.append_assoc]

theorem Progress.counted (h : k.Progress k') (hw : k.worker.Counted) : k'.worker.Counted := by
  cases h with
  | stay hc hl => exact hw.of_labels hc hl
  | settle p f hc hl => exact hw.release hc hl
  | report hp => rw [hp]; exact hw.pushUnreserved {} none
  | accept e hr hp => rw [hp]; exact hw.pushReserved e hr

theorem Progress.capacity (h : k.Progress k') : k'.worker.capacity = k.worker.capacity := by
  cases h with
  | stay hc => exact congrArg (·.1) hc
  | settle p f hc =>
    refine (congrArg (·.1) hc).trans ?_
    unfold Worker.counters Worker.release
    cases p.reserved <;> rfl
  | report hp => rw [hp]; rfl
  | accept e hr hp => rw [hp]; rfl

theorem Progress.processed (h : k.Progress k') (hk : k.worker.processed = k.settled.length) :
    k'.worker.processed = k'.settled.length := by
  cases h with
  | stay hc hl hs => rw [hs, ← hk]; exact congrArg (·.2.2.2.2) hc
  | settle p f hc hl hs =>
    refine (congrArg (·.2.2.2.2) hc).trans ?_
    rw [hs, List.length_append, ← hk]
    unfold Worker.counters Worker.release
    cases p.reserved <;> rfl
  | report hp hs => rw [hs, ← hk, hp]; rfl
  | accept e hr hp hs => rw [hs, ← hk, hp]; rfl

/-- All counters of a desk agree with what went over it. -/
structure Counted (k : Desk) (places : Nat) (backlog : List Envelope) : Prop where
  worker : k.worker.Counted
  sound : k.worker.Sound
  capacity : k.worker.capacity = places
  processed : k.worker.processed = k.settled.length
  reserved : (k.parcels.filter (·.reserved)).map (·.envelope) = k.accepted
  unreserved : ∃ n, (k.parcels.filter (!·.reserved)).map (·.envelope) = backlog ++ List.replicate n ({} : Envelope)

variable {places : Nat} {backlog : List Envelope}

theorem Progress.reserved (h : k.Progress k')
    (hk : (k.parcels.filter (·.reserved)).map (·.envelope) = k.accepted) :
    (k'.parcels.filter (·.reserved)).map (·.envelope) = k'.accepted := by
  obtain ⟨more, hl, hm⟩ := h.parcels
  rw [show (k'.parcels.filter (·.reserved)).map (·.envelope) = _ from filter_label hl (·.2)]
  simp only [Parcel.label, List.filter_append, List.map_append, hk]
  rcases hm with ⟨rfl, ha⟩ | ⟨rfl, ha⟩ | ⟨e, rfl, ha⟩ <;> simp [ha]

theorem Progress.unreserved (h : k.Progress k')
    (hk : ∃ n, (k.parcels.filter (!·.reserved)).map (·.envelope) = backlog ++ List.replicate n ({} : Envelope)) :
    ∃ n, (k'.parcels.filter (!·.reserved)).map (·.envelope) = backlog ++ List.replicate n ({} : Envelope) := by
  obtain ⟨n, hk⟩ := hk
  obtain ⟨more, hl, hm⟩ := h.parcels
  rw [show (k'.parcels.filter (!·.reserved)).map (·.envelope) = _ from filter_label hl (!·.2)]
  simp only [Parcel.label, List.filter_append, List.map_append, hk]
  rcases hm with ⟨rfl, -⟩ | ⟨rfl, -⟩ | ⟨e, rfl, -⟩
  · exact ⟨n, by simp⟩
  · exact ⟨n + 1, by simp [List.replicate_succ']⟩
  · exact ⟨n, by simp⟩

theorem Next.counted (hn : k.Next k') (hk : k.Counted places backlog) : k'.Counted places backlog where
  worker := hn.progress.counted hk.worker
  sound := hn.sound hk.sound
  capacity := hn.progress.capacity.trans hk.capacity
  processed := hn.progress.processed hk.processed
  reserved := hn.progress.reserved hk.reserved
  unreserved := hn.progress.unreserved hk.unreserved

theorem Course.counted (hc : k₀.Course k) (hk : k₀.Counted places backlog) : k.Counted places backlog := by
  induction hc with
  | refl => exact hk
  | next _ hn ih => exact hn.counted ih

/-- The desk of a worker that starts with this backlog. -/
def manned (settings : Settings) (handling : Handling) (backlog : List (Envelope × Path)) : Desk :=
  .opened ((Worker.ofSettings settings handling).withBacklog backlog)

theorem manned_counted (settings : Settings) (handling : Handling) (backlog : List (Envelope × Path)) :
    (manned settings handling backlog).Counted settings.queueCapacity.toNat (backlog.map Prod.fst) := by
  have hp : (manned settings handling backlog).parcels = backlog.map fun b => ⟨b.1, some b.2, false⟩ := by
    simp [Desk.parcels, manned, opened, Worker.withBacklog_eq, Worker.parcels, Worker.hand?, Worker.ofSettings]
  have hw : (manned settings handling backlog).worker.parcels = backlog.map fun b => ⟨b.1, some b.2, false⟩ := hp
  have hr : ∀ p ∈ (manned settings handling backlog).parcels, p.reserved = false := by
    rw [hp]
    simp only [List.mem_map]
    rintro p ⟨b, -, rfl⟩
    rfl
  have hc : (manned settings handling backlog).worker.counters =
      (settings.queueCapacity.toNat, 0, backlog.length, backlog.length, 0) := by
    simp [manned, opened, Worker.withBacklog_eq, Worker.counters, Worker.ofSettings]
  simp only [Worker.counters, Prod.mk.injEq] at hc
  obtain ⟨hcap, hq, hu, ha, hd⟩ := hc
  refine ⟨⟨?_, ?_, ?_, ?_⟩, ?_, hcap, hd, ?_, 0, ?_⟩
  · simp [hq, hw, List.countP_map, Function.comp_def]
  · simp [hu, hw, List.countP_map, Function.comp_def]
  · simp [ha, hd, hw]
  · simp [hq]
  · refine Worker.sound_of_open ?_ ?_ <;>
      simp [manned, opened, Worker.withBacklog_eq, Worker.ofSettings, Worker.isClosed]
  · rw [List.filter_eq_nil_iff.mpr fun p h => by simp [hr p h]]
    rfl
  · rw [List.filter_eq_self.mpr fun p h => by simp [hr p h], hp]
    simp

end Desk

/-! ## What the counters tell -/

namespace Worker

variable {w : Worker} {d : Depot}

/-- What the counters of a worker with so many places tell about its queue. -/
structure Accounts (w : Worker) (places : Nat) : Prop where
  queued : w.queued = w.queue.countP (·.reserved) + w.hand?.toList.countP (·.reserved)
  unreserved : w.unreserved = w.queue.countP (!·.reserved) + w.hand?.toList.countP (!·.reserved)
  room : w.queued ≤ places
  accepted : w.accepted = w.processed + w.queue.length + w.hand?.toList.length
  /-- Nothing is counted out that was not counted in. -/
  positive : ∀ p, w.hand? = some p ∨ w.position = .closing ∧ w.queue.head? = some p →
    0 < if p.reserved then w.queued else w.unreserved
  disposed : ∀ d e, (w.enqueue d e).1 = .error .disposed ↔ w.phase ≠ .running
  taken : ∀ d e, (w.enqueue d e).1 = .ok true ↔ w.phase = .running ∧ e.isEmpty = false ∧ w.queued < places
  refused : ∀ d e, (w.enqueue d e).1 = .ok false ↔ w.phase = .running ∧ (e.isEmpty = true ∨ places ≤ w.queued)
  unchanged : ∀ d e, (w.enqueue d e).1 ≠ .ok true → (w.enqueue d e).2.1 = w
  /-- What takes no place leaves all of them to those who offer. -/
  spare : ∀ d e e' file, ((w.pushUnreserved e' file).enqueue d e).1 = (w.enqueue d e).1
  stopped : w.phase = .stopped → w.queue = [] ∧ w.queued = 0 ∧ w.unreserved = 0 ∧ w.accepted = w.processed

theorem enqueue_disposed (hs : w.phase ≠ .running) (d : Depot) (e : Envelope) :
    w.enqueue d e = (.error .disposed, w, d) := by
  rw [enqueue, if_pos hs]

theorem enqueue_running (hs : w.phase = .running) (d : Depot) (e : Envelope) :
    (w.enqueue d e).1 = .ok (!e.isEmpty && decide (w.queued < w.capacity)) := by
  rw [enqueue, if_neg (by simp [hs])]
  cases e.isEmpty with
  | true => rfl
  | false =>
    by_cases hr : w.queued < w.capacity
    · simp [hr]
    · simp [hr]

theorem enqueue_unchanged {e : Envelope} (h : (w.enqueue d e).1 ≠ .ok true) : (w.enqueue d e).2.1 = w := by
  have ho := enqueue_offered w d e
  generalize w.enqueue d e = x at h ho
  cases ho with
  | taken => exact absurd rfl h
  | disposed => rfl
  | empty => rfl
  | full => rfl

theorem Counted.positive (hw : w.Counted) {p : Parcel} (hp : p ∈ w.parcels) :
    0 < if p.reserved then w.queued else w.unreserved := by
  cases hr : p.reserved with
  | true =>
    rw [if_pos rfl, hw.queued, List.countP_pos_iff]
    exact ⟨p, hp, hr⟩
  | false =>
    rw [if_neg nofun, hw.unreserved, List.countP_pos_iff]
    exact ⟨p, hp, by simp [hr]⟩

theorem Counted.accounts (hw : w.Counted) (hs : w.Sound) : w.Accounts w.capacity := by
  have hq := hw.queued
  have hu := hw.unreserved
  have ha := hw.accepted
  simp only [parcels, List.countP_append, List.length_append] at hq hu ha
  refine ⟨by omega, by omega, hw.room, by omega, fun p hp => hw.positive ?_, fun d e => ?_, fun d e => ?_,
    fun d e => ?_, fun d e => enqueue_unchanged, fun d e e' file => ?_, fun hp => ?_⟩
  · rcases hp with hp | ⟨-, hp⟩
    · rw [parcels_of_hand hp]
      exact List.mem_cons_self
    · exact List.mem_append_right _ (List.mem_of_head? hp)
  · by_cases hr : w.phase = .running
    · simp [enqueue_running hr, hr]
    · simp [enqueue_disposed hr, hr]
  · by_cases hr : w.phase = .running
    · simp [enqueue_running hr, hr]
    · simp [enqueue_disposed hr, hr]
  · by_cases hr : w.phase = .running
    · simp [enqueue_running hr, hr]
      grind
    · simp [enqueue_disposed hr, hr]
  · by_cases hr : w.phase = .running
    · rw [enqueue_running hr, enqueue_running (w := w.pushUnreserved e' file) hr]
      rfl
    · rw [enqueue_disposed hr, enqueue_disposed (w := w.pushUnreserved e' file) hr]
  · have hps := hs.parcels hp
    obtain ⟨hh, hl⟩ := List.append_eq_nil_iff.mp hps
    simp only [hh, hl, List.countP_nil, List.length_nil] at hq hu ha
    exact ⟨hl, hq, hu, ha⟩

end Worker

namespace Desk

variable {k : Desk} {d : Depot}

/-- Whatever a worker starts with, whoever uses it, and whatever is done with each envelope: its counters tell how
much of its queue and of what it has in hand takes a place and how much does not; what takes one was accepted, and
what does not is of the backlog or made for a report. -/
theorem counters_exact {settings : Settings} {handling : Handling} {backlog : List (Envelope × Path)}
    (hc : (manned settings handling backlog).Course k) :
    k.worker.Accounts settings.queueCapacity.toNat ∧
    k.worker.processed = k.settled.length ∧
    (k.parcels.filter (·.reserved)).map (·.envelope) = k.accepted ∧
    ∃ n, (k.parcels.filter (!·.reserved)).map (·.envelope) =
      backlog.map Prod.fst ++ List.replicate n ({} : Envelope) := by
  have hk := hc.counted (manned_counted settings handling backlog)
  refine ⟨?_, hk.processed, hk.reserved, hk.unreserved⟩
  rw [← hk.capacity]
  exact hk.worker.accounts hk.sound

def crowded : Settings := { Settings.standard with queueCapacity := 1 }

/-- The place is taken, the next envelope is refused, and one of the backlog comes into the hand. -/
def crowdedRun : List Act :=
  [.offer (.ofEvent "a" (.str "")) none, .offer (.ofEvent "b" (.str "")) (some .queueOverflow), .step]

theorem counters_exact_crowded :
    ∃ k k', (manned crowded .once [(.ofEvent "c" (.str ""), ⟨"c"⟩), (.ofEvent "d" (.str ""), ⟨"d"⟩)]).Course k ∧
      k.Next k' ∧ k'.worker.queued = 1 ∧ k'.worker.unreserved = 1 ∧ k'.worker.processed = 1 ∧
      k'.worker.Accounts 1 ∧
      k'.worker.processed = k'.settled.length ∧
      (k'.parcels.filter (·.reserved)).map (·.envelope) = k'.accepted ∧
      ∃ n, (k'.parcels.filter (!·.reserved)).map (·.envelope) =
        [.ofEvent "c" (.str ""), .ofEvent "d" (.str "")] ++ List.replicate n ({} : Envelope) := by
  have hrun : ((manned crowded .once [(.ofEvent "c" (.str ""), ⟨"c"⟩), (.ofEvent "d" (.str ""), ⟨"d"⟩)]).acts? {}
      crowdedRun).map (fun x => (x.1.worker.queued, x.1.worker.unreserved, x.1.worker.processed,
        x.1.worker.hand?.map (·.reserved))) = some (1, 2, 0, some false) := by decide +kernel
  obtain ⟨⟨k, d⟩, hk, hx⟩ := Option.map_eq_some_iff.mp hrun
  simp only [Prod.mk.injEq, Option.map_eq_some_iff] at hx
  obtain ⟨hq, hu, hp, p, hh, hr⟩ := hx
  have hc := Course.of_acts? hk
  have hn := Next.handled .delivered hh
  refine ⟨k, _, hc, hn, ?_, ?_, ?_, counters_exact (hc.next hn)⟩ <;>
    simp [Worker.finish, Worker.release, hr, hq, hu, hp]

end Desk

/-! ## In an office -/

namespace Worker

theorem start_eq {settings : Settings} {w : Worker} (h : start settings = .ok w) : w = ofSettings settings .once := by
  unfold start at h
  split at h <;> cases h
  rfl

theorem Started.manned {settings : Settings} {fs fs' : Storage} {w : Worker} (h : Started settings fs w fs') :
    ∃ handling backlog, Desk.opened w = Desk.manned settings handling backlog := by
  cases h with
  | owner => exact ⟨_, _, rfl⟩
  | guest => exact ⟨_, [], rfl⟩

end Worker

/-- Every desk of an office has come about from the start of its worker. -/
theorem Office.Reach.course {allowed : Office → Event → Prop} {first s : Office} (hr : Reach allowed first s)
    (hd : first.desks = []) :
    ∀ k ∈ s.desks, ∃ settings handling backlog, (Desk.manned settings handling backlog).Course k := by
  induction hr with
  | refl => simp [hd]
  | next e _ _ ht ih =>
    cases e with
    | desk i a =>
      obtain ⟨k, k', hk, ha, hs, -⟩ := after?_act ht
      obtain ⟨settings, handling, backlog, hc⟩ := ih k (List.mem_of_getElem? hk)
      rw [hs]
      exact forall_mem_set ih ⟨settings, handling, backlog, hc.next (.act a ha)⟩
    | clock n => cases ht; exact ih
    | failWrites on => cases ht; exact ih
    | start durable settings =>
      cases ht
      rcases started_desks _ durable settings with hs | ⟨w, hs, ⟨-, hw, -⟩ | ⟨-, hw⟩⟩
      · rw [hs]
        exact ih
      · rw [hs, Worker.start_eq hw]
        exact List.forall_mem_append.mpr ⟨ih, by simpa using ⟨settings, .once, [], .refl⟩⟩
      · obtain ⟨handling, backlog, ho⟩ := (Worker.startDurable_started hw).manned
        rw [hs, ho]
        exact List.forall_mem_append.mpr ⟨ih, by simpa using ⟨settings, handling, backlog, .refl⟩⟩

end Courier

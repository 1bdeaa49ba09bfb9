import Courier.Proofs.Moves

/-!
# First come, first served

What is done with, what is in hand and what is queued are, in this order, all that was ever put into the queue:
a worker takes from the front, finishes what it has taken before it takes more, and leaves nothing out.
-/

namespace Courier

/-- What of a parcel stays the same on its way. -/
def Parcel.label (p : Parcel) : Envelope × Bool := (p.envelope, p.reserved)

/-- Whether there is anything in it that somebody offered. A worker makes empty envelopes for its reports. -/
def Parcel.filled (p : Parcel) : Bool := !p.envelope.isEmpty

namespace Worker

variable {w : Worker} {d : Depot} {p : Parcel}

/-! ## What the steps leave as it is -/

@[simp] theorem release_queue : (w.release p).queue = w.queue := by
  unfold release; split <;> rfl

@[simp] theorem release_position : (w.release p).position = w.position := by
  unfold release; split <;> rfl

@[simp] theorem release_phase : (w.release p).phase = w.phase := by
  unfold release; split <;> rfl

@[simp] theorem release_handling : (w.release p).handling = w.handling := by
  unfold release; split <;> rfl

@[simp] theorem finish_queue : (w.finish p).queue = w.queue := release_queue

@[simp] theorem finish_phase : (w.finish p).phase = w.phase := release_phase

theorem spill_worker (w : Worker) (d : Depot) (e : Envelope) :
    ∃ h, (w.spill d e).2.1 = { w with handling := h } := by
  unfold spill
  split
  · exact ⟨w.handling, rfl⟩
  · exact ⟨_, rfl⟩

theorem forsake_worker (w : Worker) (d : Depot) (p : Parcel) :
    ∃ h, (w.forsake d p).2.1 = { w with handling := h } := by
  unfold forsake
  split
  · exact ⟨w.handling, rfl⟩
  · split
    · exact ⟨w.handling, rfl⟩
    · exact spill_worker w d p.envelope

/-! ## Parcels -/

theorem parcels_of_hand (h : w.hand? = some p) : w.parcels = p :: w.queue := by
  simp [parcels, h]

theorem parcels_of_no_hand (h : w.hand? = none) : w.parcels = w.queue := by
  simp [parcels, h]

theorem Yields.hand? {f : Fate} (hy : w.Yields p f) : w.hand? = some p := by
  cases hy with
  | due hp => simp [Worker.hand?, hp]
  | pausing hp => simp [Worker.hand?, hp]

theorem conclude_parcels (f : Fate) : (w.conclude d p f).worker.parcels = w.queue := by
  simp [conclude, parcels, hand?, finish]

theorem begin_worker (w : Worker) (d : Depot) (p : Parcel) :
    ∃ h file, (w.begin d p).worker = { w with handling := h, position := .due { p with file := file } 1 } := by
  unfold begin
  split
  · next file hf => exact ⟨w.handling, some file, by rw [← hf]⟩
  · obtain ⟨h, hw⟩ := spill_worker w d p.envelope
    exact ⟨h, _, by simp only [hw]; rfl⟩

theorem abandon_parcels (hp : w.position = .closing) : (w.abandon d p).worker.parcels = w.queue := by
  obtain ⟨h, hw⟩ := forsake_worker w d p
  simp [abandon, parcels, hand?, hw, hp]

theorem abandon_settled : (w.abandon d p).settled = some (p, (w.forsake d p).1) := rfl

theorem stop_parcels (hq : w.queue = []) : (w.stop d).worker.parcels = [] := by
  unfold stop
  split <;> simp [parcels, hand?, hq]

theorem begin_settled : (w.begin d p).settled = none := by
  unfold begin; split <;> rfl

theorem stop_settled : (w.stop d).settled = none := by
  unfold stop; split <;> rfl

/-- A move neither loses a parcel nor brings one, and keeps their order. -/
theorem Move.labels {x : Stride} (hm : w.Move d x) :
    (x.settled.toList.map Prod.fst ++ x.worker.parcels).map Parcel.label = w.parcels.map Parcel.label := by
  cases hm with
  | close hp => simp [parcels, hand?, hp]
  | take hp hq => simp [parcels, hand?, hp, hq]
  | @begin p hp =>
    obtain ⟨h, file, hb⟩ := begin_worker w d p
    rw [begin_settled, hb, parcels_of_hand (w := w) (p := p) (by simp [hand?, hp]), parcels_of_hand rfl]
    rfl
  | hand hp => simp [parcels, hand?, hp]
  | @blank p _ _ _ hp =>
    rw [conclude_parcels, parcels_of_hand (p := p) (by simp [hand?, hp])]
    rfl
  | pause hp => simp [parcels, hand?, hp]
  | @fail p _ _ _ _ hp =>
    rw [conclude_parcels, parcels_of_hand (p := p) (by simp [hand?, hp])]
    rfl
  | yield hy =>
    rw [conclude_parcels, parcels_of_hand hy.hand?]
    rfl
  | @abandon p rest hp hq =>
    have ha : ({ w with queue := rest }.abandon d p).worker.parcels = rest := abandon_parcels hp
    rw [ha, abandon_settled, parcels_of_no_hand (by simp [hand?, hp]), hq]
    rfl
  | stop hp hq =>
    rw [stop_settled, stop_parcels hq, parcels_of_no_hand (by simp [hand?, hp]), hq]
    rfl

theorem pushUnreserved_parcels (e : Envelope) (file : Option Path) :
    (w.pushUnreserved e file).parcels = w.parcels ++ [⟨e, file, false⟩] := by
  simp [parcels, pushUnreserved, hand?]

theorem pushReserved_parcels (e : Envelope) : (w.pushReserved e).parcels = w.parcels ++ [⟨e, none, true⟩] := by
  simp [parcels, pushReserved, hand?]

theorem Polled.parcels {w' : Worker} (hw : w.Polled w') :
    w'.parcels = w.parcels ∨ w'.parcels = w.parcels ++ [⟨{}, none, false⟩] := by
  cases hw with
  | same => exact .inl rfl
  | report => exact .inr (pushUnreserved_parcels ..)
  | begun => exact .inl rfl
  | ended => exact .inl rfl
  | aborted => exact .inl rfl

/-! ## The end -/

/-- A worker that has stopped has nothing left, and one that sends nothing more is shut down. -/
structure Sound (w : Worker) : Prop where
  closed : w.isClosed = true → w.phase ≠ .running
  stopped : w.phase = .stopped → w.position = .stopped
  empty : w.position = .stopped → w.queue = []

theorem Sound.open (hw : w.Sound) (hp : w.position ≠ .stopped) : w.phase ≠ .stopped :=
  fun h => hp (hw.stopped h)

theorem sound_of_open (hc : w.isClosed = false) (hs : w.phase ≠ .stopped) : w.Sound where
  closed h := by rw [hc] at h; cases h
  stopped h := (hs h).elim
  empty h := by simp [isClosed, h] at hc

theorem Sound.begin (hw : w.Sound) (hp : w.position = .taken p) : (w.begin d p).worker.Sound := by
  obtain ⟨h, file, hb⟩ := begin_worker w d p
  rw [hb]
  exact sound_of_open rfl (hw.open (by simp [hp]))

theorem Sound.conclude (hw : w.Sound) (hp : w.position ≠ .stopped) (f : Fate) : (w.conclude d p f).worker.Sound :=
  sound_of_open rfl (by rw [Worker.conclude, finish_phase]; exact hw.open hp)

theorem Sound.abandon (hw : w.Sound) (hp : w.position = .closing) : (w.abandon d p).worker.Sound := by
  obtain ⟨h, hv⟩ := forsake_worker w d p
  refine ⟨fun _ => ?_, fun h => ?_, fun h => ?_⟩
  · simp only [Worker.abandon, release_phase, hv]
    exact hw.closed (by simp [isClosed, hp])
  · simp only [Worker.abandon, release_phase, hv] at h
    exact (hw.open (by simp [hp]) h).elim
  · simp [Worker.abandon, hv, hp] at h

theorem Move.sound {x : Stride} (hm : w.Move d x) (hw : w.Sound) : x.worker.Sound := by
  cases hm with
  | close hp hs => exact ⟨fun _ => hs, fun h => (hw.open (by simp [hp]) h).elim, nofun⟩
  | take hp => exact sound_of_open rfl (hw.open (by simp [hp]))
  | begin hp => exact hw.begin hp
  | hand hp => exact sound_of_open rfl (hw.open (by simp [hp]))
  | blank hp => exact hw.conclude (by simp [hp]) _
  | pause hp => exact sound_of_open rfl (hw.open (by simp [hp]))
  | fail hp => exact hw.conclude (by simp [hp]) _
  | yield hy =>
    cases hy with
    | due hp => exact hw.conclude (by simp [hp]) _
    | pausing hp => exact hw.conclude (by simp [hp]) _
  | abandon hp =>
    refine Sound.abandon (w := { w with queue := _ }) ⟨hw.closed, hw.stopped, fun h => ?_⟩ hp
    exact absurd (hp.symm.trans h) nofun
  | stop hp hq =>
    unfold Worker.stop
    split
    · exact ⟨fun _ => nofun, fun _ => rfl, fun _ => hq⟩
    · exact ⟨fun _ => nofun, fun _ => rfl, fun _ => hq⟩

theorem Polled.sound {w' : Worker} (hp : w.Polled w') (hw : w.Sound) : w'.Sound := by
  cases hp with
  | same => exact hw
  | report hc => exact ⟨hw.closed, hw.stopped, fun h => by simp [isClosed, show w.position = .stopped from h] at hc⟩
  | begun hs => exact ⟨fun h => (hw.closed h hs).elim, nofun, hw.empty⟩
  | ended hs => exact ⟨fun h => (hw.closed h hs).elim, nofun, hw.empty⟩
  | aborted => exact ⟨hw.closed, hw.stopped, hw.empty⟩

theorem Sound.parcels (hw : w.Sound) (hs : w.phase = .stopped) : w.parcels = [] := by
  have hp := hw.stopped hs
  rw [parcels_of_no_hand (by simp [hand?, hp]), hw.empty hp]

theorem Sound.sending? (hw : w.Sound) (hs : w.phase = .stopped) : w.sending? = none := by
  simp [Worker.sending?, hw.stopped hs]

end Worker

/-! ## At a desk -/

namespace Desk

variable {k k' : Desk} {d d' : Depot}

def parcels (k : Desk) : List Parcel := k.settled.map Prod.fst ++ k.worker.parcels

/-- The queue keeps its order. -/
structure InOrder (k : Desk) : Prop where
  /-- What took a place is what was accepted. -/
  accepted : (k.parcels.filter (·.reserved)).map (·.envelope) = k.accepted
  /-- What has items came from the files or was accepted. -/
  filled : (k.parcels.filter fun p => !p.envelope.isEmpty).map (·.envelope) = k.backlog.map Prod.fst ++ k.accepted
  /-- What has no items was made for a report to ride along. -/
  blank : ∀ p ∈ k.parcels, p.envelope.isEmpty = true → p.envelope = {}

theorem filter_label {ps qs : List Parcel} (h : ps.map Parcel.label = qs.map Parcel.label)
    (f : Envelope × Bool → Bool) :
    (ps.filter (fun p => f p.label)).map (·.envelope) = (qs.filter (fun p => f p.label)).map (·.envelope) := by
  have hf (l : List Parcel) :
      (l.filter (fun p => f p.label)).map (·.envelope) = ((l.map Parcel.label).filter f).map Prod.fst := by
    rw [List.filter_map, List.map_map]
    rfl
  rw [hf, hf, h]

theorem InOrder.of_labels (ho : k.InOrder) (hl : k'.parcels.map Parcel.label = k.parcels.map Parcel.label)
    (ha : k'.accepted = k.accepted) (hb : k'.backlog = k.backlog) : k'.InOrder where
  accepted := by rw [ha, ← ho.accepted]; exact filter_label hl (·.2)
  filled := by rw [ha, hb, ← ho.filled]; exact filter_label hl (fun l => !l.1.isEmpty)
  blank p hp he := by
    obtain ⟨q, hq, hl⟩ := List.mem_map.mp (hl ▸ List.mem_map_of_mem hp)
    have hqp : q.envelope = p.envelope := congrArg Prod.fst hl
    rw [← hqp] at he ⊢
    exact ho.blank q hq he

theorem InOrder.push_report (ho : k.InOrder) (hl : k'.parcels = k.parcels ++ [⟨{}, none, false⟩])
    (ha : k'.accepted = k.accepted) (hb : k'.backlog = k.backlog) : k'.InOrder where
  accepted := by rw [ha, ← ho.accepted, hl]; simp
  filled := by rw [ha, hb, ← ho.filled, hl]; simp [Envelope.isEmpty]
  blank p hp he := by
    rcases List.mem_append.mp (hl ▸ hp) with hp | hp
    · exact ho.blank p hp he
    · cases List.mem_singleton.mp hp
      rfl

theorem moved_labels {x : Stride}
    (hx : (x.settled.toList.map Prod.fst ++ x.worker.parcels).map Parcel.label =
      k.worker.parcels.map Parcel.label) :
    (k.moved x).parcels.map Parcel.label = k.parcels.map Parcel.label := by
  simp only [parcels, moved, List.map_append, List.append_assoc] at hx ⊢
  rw [hx]

theorem Change.sound (hc : k.Change d k' d') (hw : k.worker.Sound) : k'.worker.Sound := by
  cases hc with
  | step hm => exact hm.sound hw
  | error hp e => exact (Worker.answered_move hp e).sound hw
  | arrive hp => exact Worker.Sound.conclude (d := d) hw (by simp [hp]) .delivered
  | resume hp => exact Worker.sound_of_open rfl (hw.open (by simp [hp]))
  | accept hs =>
    refine ⟨hw.closed, hw.stopped, fun h => (hw.closed ?_ hs).elim⟩
    simp [Worker.isClosed, show k.worker.position = .stopped from h]
  | refuse => exact hw
  | polled waits hp => exact hp.sound hw

theorem Change.backlog (hc : k.Change d k' d') : k'.backlog = k.backlog := by
  cases hc <;> rfl

theorem Change.inOrder (hc : k.Change d k' d') (ho : k.InOrder) : k'.InOrder := by
  cases hc with
  | step hm => exact ho.of_labels (moved_labels hm.labels) rfl rfl
  | error hp e => exact ho.of_labels (moved_labels (Worker.answered_move hp e).labels) rfl rfl
  | @arrive p _ _ hp =>
    refine ho.of_labels (moved_labels ?_) rfl rfl
    rw [Worker.conclude_parcels, Worker.parcels_of_hand (p := p) (by simp [Worker.hand?, hp])]
    rfl
  | resume hp => exact ho.of_labels (by simp [parcels, Worker.parcels, Worker.hand?, hp]) rfl rfl
  | @accept e hs he hr =>
    have hl : k.settled.map Prod.fst ++ (k.worker.pushReserved e).parcels = k.parcels ++ [⟨e, none, true⟩] := by
      rw [Worker.pushReserved_parcels, ← List.append_assoc]; rfl
    refine ⟨?_, ?_, fun p hp hb => ?_⟩
    · show (List.filter _ (k.settled.map Prod.fst ++ (k.worker.pushReserved e).parcels)).map _ = k.accepted ++ [e]
      rw [hl, ← ho.accepted]; simp
    · show (List.filter _ (k.settled.map Prod.fst ++ (k.worker.pushReserved e).parcels)).map _ =
        k.backlog.map Prod.fst ++ (k.accepted ++ [e])
      rw [hl, ← List.append_assoc, ← ho.filled]; simp [he]
    · have hp : p ∈ k.settled.map Prod.fst ++ (k.worker.pushReserved e).parcels := hp
      rcases List.mem_append.mp (hl ▸ hp) with hp | hp
      · exact ho.blank p hp hb
      · rw [List.mem_singleton.mp hp, he] at hb
        cases hb
  | refuse => exact ⟨ho.accepted, ho.filled, ho.blank⟩
  | polled waits hw =>
    rcases hw.parcels with hl | hl
    · exact ho.of_labels (by simp only [parcels, hl]) rfl rfl
    · exact ho.push_report (by simp only [parcels, hl, List.append_assoc]) rfl rfl

end Desk

/-! ## Starts -/

/-- A worker that has just started holds what it found in its files. -/
structure Worker.Fresh (w : Worker) : Prop where
  phase : w.phase = .running
  aborted : w.aborted = false
  position : w.position = .idle
  queue : ∀ p ∈ w.queue, p.reserved = false ∧ p.file.isSome ∧ p.envelope.isEmpty = false

namespace Worker

variable {w : Worker} {settings : Settings} {fs fs' : Storage}

theorem withBacklog_eq (w : Worker) (backlog : List (Envelope × Path)) :
    w.withBacklog backlog = { w with
      queue := w.queue ++ backlog.map fun b => ⟨b.1, some b.2, false⟩
      unreserved := w.unreserved + backlog.length
      accepted := w.accepted + backlog.length } := by
  unfold withBacklog
  induction backlog generalizing w with
  | nil => simp
  | cons b backlog ih =>
    rw [List.foldl_cons, ih]
    simp [pushUnreserved, Nat.add_comm, Nat.add_left_comm]

theorem isEmpty_of_load? {file : Path} {e : Envelope} (h : SpillDir.load? fs file = some e) : e.isEmpty = false := by
  unfold SpillDir.load? at h
  split at h
  · cases h
  · split at h
    · cases h
    · split at h
      · cases h
      · next he => cases h; simpa using he

theorem isEmpty_of_loadAll (fs : Storage) (files : List Path) :
    ∀ b ∈ (SpillDir.loadAll fs files).1, b.1.isEmpty = false := by
  fun_induction SpillDir.loadAll fs files with
  | case1 => simp
  | case2 fs file rest e he found fs' hl ih =>
    intro b hb
    rcases List.mem_cons.mp hb with rfl | hb
    · exact isEmpty_of_load? he
    · exact ih b (by rw [hl]; exact hb)
  | case3 fs file rest he ih => exact ih

theorem start_fresh (h : start settings = .ok w) : w.Fresh ∧ w.handling = .once ∧ w.queue = [] := by
  unfold start at h
  split at h
  · cases h
  · cases h
    exact ⟨⟨rfl, rfl, rfl, by simp [ofSettings]⟩, rfl, rfl⟩

/-- A worker that keeps envelopes in files starts where it has the directory, or without it. -/
inductive Started (settings : Settings) (fs : Storage) : Worker → Storage → Prop
  | owner {dir claim fs₁ backlog spill fs'} (hd : settings.cacheDir = some dir)
    (ha : ({ dir := ⟨dir⟩ } : DirClaim Path).acquire fs = (.ok true, claim, fs₁))
    (hr : SpillDir.recover { claim, enabled := true, capacity := settings.cacheCapacity } fs₁ =
      (backlog, spill, fs')) :
    Started settings fs ((ofSettings settings (.durable spill settings.retry)).withBacklog backlog) fs'
  | guest {dir claim fs'} (hd : settings.cacheDir = some dir)
    (ha : ({ dir := ⟨dir⟩ } : DirClaim Path).acquire fs = (.ok false, claim, fs')) :
    Started settings fs
      (ofSettings settings
        (.durable { claim, enabled := false, capacity := settings.cacheCapacity } settings.retry)) fs'

theorem startDurable_started (h : startDurable settings fs = (.ok w, fs')) : Started settings fs w fs' := by
  unfold startDurable at h
  split at h
  · cases h
  · split at h
    · cases h
    · next dir hd =>
      split at h
      · cases h
      · next owned claim fs₁ ha =>
        cases owned with
        | false => cases h; exact .guest hd ha
        | true =>
          rcases hr : SpillDir.recover { claim, enabled := true, capacity := settings.cacheCapacity } fs₁ with
            ⟨backlog, spill, fs₂⟩
          simp only [ite_true, hr] at h
          cases h
          exact .owner hd ha hr

theorem recover_backlog {spill spill' : SpillDir} {backlog : List (Envelope × Path)}
    (h : spill.recover fs = (backlog, spill', fs')) : ∀ b ∈ backlog, b.1.isEmpty = false := by
  unfold SpillDir.recover at h
  split at h
  · cases h; simp
  · next files hf =>
    have hb := isEmpty_of_loadAll fs files
    cases h
    exact hb

theorem Started.fresh (h : Started settings fs w fs') : w.Fresh := by
  cases h with
  | guest => exact ⟨rfl, rfl, rfl, by simp [ofSettings]⟩
  | owner hd ha hr =>
    rw [withBacklog_eq]
    refine ⟨rfl, rfl, rfl, ?_⟩
    intro p hp
    rcases List.mem_append.mp hp with hp | hp
    · simp [ofSettings] at hp
    obtain ⟨b, hb, rfl⟩ := List.mem_map.mp hp
    exact ⟨rfl, rfl, recover_backlog hr b hb⟩

theorem Fresh.sound (hw : w.Fresh) : w.Sound :=
  sound_of_open (by simp [isClosed, hw.position]) (by simp [hw.phase])

theorem Fresh.inOrder (hw : w.Fresh) : (Desk.opened w).InOrder := by
  have hps : (Desk.opened w).parcels = w.queue := by simp [Desk.parcels, Desk.opened, parcels, hand?, hw.position]
  constructor
  · rw [hps, List.filter_eq_nil_iff.mpr (fun p hp => by simp [(hw.queue p hp).1])]
    rfl
  · rw [hps, List.filter_eq_self.mpr (fun p hp => by simp [(hw.queue p hp).2.2])]
    simp only [Desk.opened, List.append_nil]
    have hf := fun p hp => (hw.queue p hp).2.1
    generalize w.queue = ps at hf
    induction ps with
    | nil => rfl
    | cons p ps ih =>
      obtain ⟨file, hp⟩ := Option.isSome_iff_exists.mp (hf p (by simp))
      simp [hp, ih fun p hp => hf p (by simp [hp])]
  · intro p hp he
    rw [hps] at hp
    exact absurd ((hw.queue p hp).2.2.symm.trans he) nofun

end Worker

namespace Office

theorem started_fresh (s : Office) (durable : Bool) (settings : Settings) :
    (s.started durable settings).desks = s.desks ∨
      ∃ w, (s.started durable settings).desks = s.desks ++ [.opened w] ∧ w.Fresh := by
  rcases s.started_desks durable settings with h | ⟨w, h, ⟨_, hw, _⟩ | ⟨_, hw⟩⟩
  · exact .inl h
  · exact .inr ⟨w, h, (Worker.start_fresh hw).1⟩
  · exact .inr ⟨w, h, (Worker.startDurable_started hw).fresh⟩

/-- What holds of a desk that is opened, and goes on to hold whatever happens at it, holds of all desks. -/
theorem Reach.desks {allowed : Office → Event → Prop} {first s : Office} {P : Desk → Prop} (hr : Reach allowed first s)
    (hopen : ∀ w : Worker, w.Fresh → P (.opened w)) (hchange : ∀ k d k' d', Desk.Change k d k' d' → P k → P k')
    (hf : ∀ k ∈ first.desks, P k) : ∀ k ∈ s.desks, P k := by
  induction hr with
  | refl => exact hf
  | next e _ _ ht ih =>
    cases e with
    | desk i a =>
      obtain ⟨k, k', hk, hc, hd, -⟩ := after?_desk ht
      rw [hd]
      exact forall_mem_set ih (hchange k _ k' _ hc (ih k (List.mem_of_getElem? hk)))
    | clock n => cases ht; exact ih
    | failWrites on => cases ht; exact ih
    | start durable settings =>
      cases ht
      rcases started_fresh _ durable settings with hd | ⟨w, hd, hw⟩
      · rw [hd]
        exact ih
      · rw [hd]
        exact List.forall_mem_append.mpr ⟨ih, by simpa using hopen w hw⟩

end Office

end Courier

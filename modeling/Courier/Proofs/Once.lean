import Courier.Proofs.Told

/-!
# Sending once

A worker without files hands every envelope over at most once, in order, and what becomes of it is what the
transport answered, or that it was given up.
-/

namespace Courier

/-- How a worker without files is done with a parcel. -/
inductive Exit
  /-- There was nothing in it, and no losses to report. -/
  | blank (p : Parcel)
  | answered (p : Parcel) (out : Outbound) (r : Except SendError Unit)
  /-- The transport had it, and was not waited for. -/
  | cut (p : Parcel) (out : Outbound)
  /-- It was next, and was not handed over. -/
  | unsent (p : Parcel)
  /-- It was in the queue, which was closed. -/
  | abandoned (p : Parcel)

namespace Exit

def settled : Exit → Parcel × Fate
  | blank p => (p, .delivered)
  | answered p _ (.ok _) => (p, .delivered)
  | answered p _ (.error e) => (p, .failed e)
  | cut p _ => (p, .failed .cancelled)
  | unsent p => (p, .failed .cancelled)
  | abandoned p => (p, .abandoned .sendError)

def handed? : Exit → Option (Parcel × Outbound)
  | answered p out _ => some (p, out)
  | cut p out => some (p, out)
  | _ => none

def answer? : Exit → Option (Parcel × Outbound × Except SendError Unit)
  | answered p out r => some (p, out, r)
  | _ => none

end Exit

namespace Worker

variable {w : Worker} {d : Depot} {p : Parcel}

/-! ## Moves of a worker without files -/

/-- It keeps nothing in files, and never waits to send again. -/
structure SendsOnce (w : Worker) : Prop where
  handling : w.handling = .once
  awake : w.isPausing = false

section
variable (ho : w.SendsOnce)
include ho

theorem begin_sendsOnce : (w.begin d p).worker.SendsOnce := by
  unfold begin spill
  split
  · exact ⟨ho.handling, rfl⟩
  · simp only [ho.handling]
    exact ⟨rfl, rfl⟩

theorem conclude_sendsOnce (f : Fate) : (w.conclude d p f).worker.SendsOnce :=
  ⟨release_handling.trans ho.handling, rfl⟩

theorem forsake_sendsOnce : w.forsake d p = (.abandoned .sendError, w, d) := by
  simp [forsake, ho.handling]

theorem abandon_sendsOnce : (w.abandon d p).worker.SendsOnce := by
  rw [Worker.abandon, forsake_sendsOnce ho]
  refine ⟨release_handling.trans ho.handling, ?_⟩
  simp only [isPausing, release_position]
  exact ho.awake

theorem verdict?_sendsOnce (n : UInt32) (e : SendError) : w.handling.verdict? p n e = some (.failed e) := by
  rw [ho.handling]
  rfl

theorem not_pausing {n : UInt32} (hp : w.position = .pausing p n) : False := by
  have h := ho.awake
  simp [isPausing, hp] at h

theorem Move.sendsOnce {x : Stride} (hm : w.Move d x) : x.worker.SendsOnce := by
  cases hm with
  | close => exact ⟨ho.handling, rfl⟩
  | take => exact ⟨ho.handling, rfl⟩
  | begin => exact begin_sendsOnce ho
  | hand => exact ⟨ho.handling, rfl⟩
  | blank => exact conclude_sendsOnce ho _
  | pause hp hv =>
    rw [verdict?_sendsOnce ho] at hv
    cases hv
  | fail => exact conclude_sendsOnce ho _
  | yield => exact conclude_sendsOnce ho _
  | abandon => exact abandon_sendsOnce (w := { w with queue := _ }) ⟨ho.handling, ho.awake⟩
  | stop =>
    simp only [Worker.stop, ho.handling]
    exact ⟨rfl, rfl⟩

/-- How the worker is done with what it had in hand, or with what was in the queue, when these answers came. -/
structure Leaves (w : Worker) (answers : List (Parcel × Outbound × Except SendError Unit)) (exits : List Exit)
    (x : Stride) : Prop where
  settled : x.settled.toList = exits.map Exit.settled
  handed : w.sending?.toList = exits.filterMap Exit.handed?
  answers : answers = exits.filterMap Exit.answer?
  blank : ∀ p, Exit.blank p ∈ exits → p.filled = false

theorem step?_cut {n : UInt32} {out : Outbound} {x : Stride} (hp : w.position = .sending p n out)
    (hx : w.step? d = some x) : x = w.conclude (d.failed out .cancelled) p (.failed .cancelled) := by
  unfold step? at hx
  simp only [hp] at hx
  split at hx
  · cases hx
    simp only [failed, verdict?_sendsOnce ho]
  · cases hx

theorem Move.leaves {x : Stride} (hm : w.Move d x) (hx : w.step? d = some x) : ∃ exits, w.Leaves [] exits x := by
  cases hm with
  | close hp => exact ⟨[], rfl, by simp [Worker.sending?, hp], rfl, by simp⟩
  | take hp => exact ⟨[], rfl, by simp [Worker.sending?, hp], rfl, by simp⟩
  | begin hp => exact ⟨[], by rw [begin_settled]; rfl, by simp [Worker.sending?, hp], rfl, by simp⟩
  | hand hp => exact ⟨[], rfl, by simp [Worker.sending?, hp], rfl, by simp⟩
  | @blank p n out d' hp hl hn =>
    have he : p.envelope.isEmpty = true := by
      rw [show out = (d.load w.reportLosses p.envelope).1 by rw [hl]] at hn
      exact (Depot.load_blank hn).1
    exact ⟨[.blank p], rfl, by simp [Worker.sending?, hp, Exit.handed?], rfl, by simp [Parcel.filled, he]⟩
  | pause hp hv =>
    rw [verdict?_sendsOnce ho] at hv
    cases hv
  | @fail p n out e f hp hv =>
    -- only a worker that was told to give up goes on without an answer
    rw [step?_cut ho hp hx]
    exact ⟨[.cut p out], rfl, by rw [sending?_of_hand hp]; rfl, rfl, by simp⟩
  | @yield p f hy =>
    cases hy with
    | due hp hv =>
      rw [verdict?_sendsOnce ho] at hv
      cases hv
      exact ⟨[.unsent p], rfl, by simp [Worker.sending?, hp, Exit.handed?], rfl, by simp⟩
    | pausing hp => exact (not_pausing ho hp).elim
  | @abandon p rest hp =>
    have hf := forsake_sendsOnce (w := { w with queue := rest }) (d := d) (p := p) ⟨ho.handling, ho.awake⟩
    exact ⟨[.abandoned p], by rw [abandon_settled, hf]; rfl, by simp [Worker.sending?, hp, Exit.handed?], rfl, by simp⟩
  | stop hp => exact ⟨[], by rw [stop_settled]; rfl, by simp [Worker.sending?, hp], rfl, by simp⟩

theorem Polled.sendsOnce {w' : Worker} (hw : w.Polled w') : w'.SendsOnce ∧ w'.sending? = w.sending? := by
  cases hw <;> exact ⟨⟨ho.handling, ho.awake⟩, rfl⟩

end

end Worker

/-! ## At a desk -/

namespace Desk

/-- These are the ways in which the worker was done with its parcels. What it has handed over has come back, or the
transport has it. -/
structure Left (k : Desk) (exits : List Exit) : Prop where
  settled : k.settled = exits.map Exit.settled
  handed : k.handed = exits.filterMap Exit.handed? ++ k.worker.sending?.toList
  answers : k.answers = exits.filterMap Exit.answer?
  blank : ∀ p, Exit.blank p ∈ exits → p.filled = false

/-- What became of the envelopes of a desk whose worker sends once. -/
structure Once (k : Desk) : Prop where
  worker : k.worker.SendsOnce
  left : ∃ exits, k.Left exits
  of : ∀ x ∈ k.handed, x.2.Of x.1.envelope

variable {k k' : Desk} {d d' : Depot} {exits : List Exit}

theorem Left.moved {x : Stride} {answers : List (Parcel × Outbound × Except SendError Unit)} {more : List Exit}
    (h : k.Left exits) (hx : k.worker.Leaves answers more x) :
    ({ k.moved x with answers := k.answers ++ answers } : Desk).Left (exits ++ more) where
  settled := by simp [Desk.moved, h.settled, hx.settled]
  handed := by simp [Desk.moved, h.handed, hx.handed]
  answers := by simp [h.answers, hx.answers]
  blank p hp := (List.mem_append.mp hp).elim (h.blank p) (hx.blank p)

theorem Left.same (h : k.Left exits) (hs : k'.settled = k.settled) (hh : k'.handed = k.handed)
    (ha : k'.answers = k.answers) (hw : k'.worker.sending? = k.worker.sending?) : k'.Left exits :=
  ⟨hs.trans h.settled, by rw [hh, hw]; exact h.handed, ha.trans h.answers, h.blank⟩

/-- The transport answers. -/
theorem Left.answered {x : Stride} {p : Parcel} {out : Outbound} {r : Except SendError Unit} (h : k.Left exits)
    (hw : k.worker.sending? = some (p, out)) (hs : x.settled = some (Exit.answered p out r).settled) :
    ({ k.moved x with answers := k.answers ++ [(p, out, r)] } : Desk).Left (exits ++ [.answered p out r]) :=
  h.moved ⟨by rw [hs]; rfl, by rw [hw]; rfl, rfl, by simp⟩

theorem Change.left (hc : k.Change d k' d') (ho : k.worker.SendsOnce) (h : k.Left exits) :
    ∃ exits', k'.Left exits' := by
  cases hc with
  | step hm hx =>
    obtain ⟨more, hmore⟩ := hm.leaves ho hx
    have hleft := h.moved hmore
    rw [List.append_nil] at hleft
    exact ⟨_, hleft⟩
  | @error p n out hp e =>
    have hx : k.worker.answered d (.error e) = k.worker.conclude (d.failed out e) p (.failed e) := by
      simp only [Worker.answered, hp, Worker.failed, Worker.verdict?_sendsOnce ho]
    rw [hx]
    exact ⟨_, h.answered (r := .error e) (Worker.sending?_of_hand hp) rfl⟩
  | arrive hp =>
    exact ⟨_, h.answered (r := .ok ()) (Worker.sending?_of_hand hp) rfl⟩
  | resume hp => exact (Worker.not_pausing ho hp).elim
  | accept => exact ⟨_, h.same rfl rfl rfl rfl⟩
  | refuse => exact ⟨_, h.same rfl rfl rfl rfl⟩
  | polled waits hw => exact ⟨_, h.same rfl rfl rfl (hw.sendsOnce ho).2⟩

theorem Change.sendsOnce (hc : k.Change d k' d') (ho : k.worker.SendsOnce) : k'.worker.SendsOnce := by
  cases hc with
  | step hm => exact hm.sendsOnce ho
  | error hp e => exact (Worker.answered_move hp e).sendsOnce ho
  | arrive => exact Worker.conclude_sendsOnce (d := d) ho .delivered
  | resume hp => exact (Worker.not_pausing ho hp).elim
  | accept => exact ⟨ho.handling, ho.awake⟩
  | refuse => exact ho
  | polled waits hw => exact (hw.sendsOnce ho).1

/-- Whatever is handed over is an envelope as it was in the queue, with a report behind it or without one. -/
theorem Change.handed_of (hc : k.Change d k' d') (h : ∀ x ∈ k.handed, x.2.Of x.1.envelope) :
    ∀ x ∈ k'.handed, x.2.Of x.1.envelope := by
  have hmore {x : Stride} (hx : ∀ p out, x.worker.sending? = some (p, out) → out.Of p.envelope) :
      ∀ y ∈ k.handed ++ x.worker.sending?.toList, y.2.Of y.1.envelope := by
    intro y hy
    rcases List.mem_append.mp hy with hy | hy
    · exact h y hy
    · exact hx y.1 y.2 (Option.mem_toList.mp hy)
  cases hc with
  | step hm => exact hmore fun _ _ => hm.sending?
  | error hp e => exact hmore fun _ _ => (Worker.answered_move hp e).sending?
  | arrive => exact hmore nofun
  | resume => exact h
  | accept => exact h
  | refuse => exact h
  | polled => exact h

theorem Change.once (hc : k.Change d k' d') (ho : k.Once) : k'.Once := by
  obtain ⟨exits, he⟩ := ho.left
  exact ⟨hc.sendsOnce ho.worker, hc.left ho.worker he, hc.handed_of ho.of⟩

end Desk

/-! ## A worker by itself -/

def Event.isStart : Event → Bool
  | .start _ _ => true
  | _ => false

namespace Office

/-- One worker without files, and nothing that is not accounted for. -/
structure SendsOnce (s : Office) (k : Desk) : Prop where
  desks : s.desks = [k]
  once : k.Once
  sends : k.Sends
  sound : k.worker.Sound
  backlog : k.backlog = []

variable {first s t : Office}

theorem SendsOnce.after {k : Desk} {e : Event} (hs : s.SendsOnce k) (ha : e.isStart = false) (h : s.after? e = some t) :
    ∃ k', t.SendsOnce k' := by
  cases e with
  | desk i a =>
    obtain ⟨k₁, k', hk, hc, ht, -⟩ := after?_desk h
    rw [hs.desks] at hk ht
    cases i with
    | zero =>
      cases hk
      exact ⟨k', ht, hc.once hs.once, hc.sends hs.sends, hc.sound hs.sound, hc.backlog.trans hs.backlog⟩
    | succ i => cases hk
  | clock n => cases h; exact ⟨k, hs.desks, hs.once, hs.sends, hs.sound, hs.backlog⟩
  | failWrites on => cases h; exact ⟨k, hs.desks, hs.once, hs.sends, hs.sound, hs.backlog⟩
  | start durable settings => cases ha

theorem SendsOnce.opened {settings : Settings} {w : Worker} (hw : Worker.start settings = .ok w)
    (hd : s.desks = [.opened w]) : s.SendsOnce (.opened w) := by
  obtain ⟨hf, hh, hq⟩ := Worker.start_fresh hw
  refine ⟨hd, ?_, Desk.opened_sends hf, hf.sound, by simp [Desk.opened, hq]⟩
  have hn : w.sending? = none := by simp [Worker.sending?, hf.position]
  refine ⟨⟨hh, by simp [Desk.opened, Worker.isPausing, hf.position]⟩, ⟨[], rfl, ?_, rfl, by simp⟩, by simp [Desk.opened]⟩
  simp [Desk.opened, hn]

theorem Reach.sendsOnce (hr : Reach (fun _ e => e.isStart = false) first s) {k : Desk} (hk : first.SendsOnce k) :
    ∃ k', s.SendsOnce k' := by
  induction hr with
  | refl => exact ⟨k, hk⟩
  | next e hr ha ht ih =>
    obtain ⟨k', hk'⟩ := ih
    exact hk'.after ha ht

end Office

end Courier

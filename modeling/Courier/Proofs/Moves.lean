import Courier.Proofs.Office

/-!
# What a worker does

`Move` lists what a worker does by itself and what it does when a send has failed; `Polled` lists what those who
wait for it do to it. What is true of all workers is shown by going through these lists.
-/

namespace Courier

/-! ## Fates -/

theorem Parcel.interrupted_cases (p : Parcel) :
    p.interrupted = .failed .cancelled ∨ ∃ g, p.file = some g ∧ p.interrupted = .kept g := by
  unfold interrupted
  cases p.file with
  | none => exact .inl rfl
  | some g => exact .inr ⟨g, rfl, rfl⟩

theorem Handling.verdict?_cases {h : Handling} {p : Parcel} {n : UInt32} {e : SendError} {f : Fate}
    (hv : h.verdict? p n e = some f) :
    f = .failed e ∨ ∃ g, p.file = some g ∧ f = .kept g := by
  unfold verdict? at hv
  split at hv
  · cases hv; exact .inl rfl
  · split at hv
    · cases hv; exact p.interrupted_cases
    · split at hv
      · cases hv
      · cases hv; exact .inl rfl

theorem Handling.verdict?_cancelled (h : Handling) (p : Parcel) (n : UInt32) :
    ∃ f, h.verdict? p n .cancelled = some f := by
  cases h with
  | once => exact ⟨_, rfl⟩
  | durable => exact ⟨_, rfl⟩

namespace Worker

/-- What the worker is told to give up. -/
inductive Yields (w : Worker) (p : Parcel) : Fate → Prop
  | due {n f} (hp : w.position = .due p n) (hv : w.handling.verdict? p n .cancelled = some f) : Yields w p f
  | pausing {n} (hp : w.position = .pausing p n) : Yields w p p.interrupted

/-! ## Moves -/

inductive Move (w : Worker) (d : Depot) : Stride → Prop
  | close (hp : w.position = .idle) (hs : w.phase ≠ .running) : Move w d ⟨{ w with position := .closing }, d, none⟩
  | take {p rest} (hp : w.position = .idle) (hq : w.queue = p :: rest) :
    Move w d ⟨{ w with queue := rest, position := .taken p }, d, none⟩
  | begin {p} (hp : w.position = .taken p) : Move w d (w.begin d p)
  | hand {p n out d'} (hp : w.position = .due p n) (hl : d.load w.reportLosses p.envelope = (out, d'))
    (hn : out.envelope.isEmpty = false) : Move w d ⟨{ w with position := .sending p n out }, d', none⟩
  | blank {p n out d'} (hp : w.position = .due p n) (hl : d.load w.reportLosses p.envelope = (out, d'))
    (hn : out.envelope.isEmpty = true) : Move w d (w.conclude d' p .delivered)
  | pause {p n out e} (hp : w.position = .sending p n out) (hv : w.handling.verdict? p n e = none) :
    Move w d ⟨{ w with position := .pausing p n }, d.failed out e, none⟩
  | fail {p n out e f} (hp : w.position = .sending p n out) (hv : w.handling.verdict? p n e = some f) :
    Move w d (w.conclude (d.failed out e) p f)
  | yield {p f} (hy : w.Yields p f) : Move w d (w.conclude d p f)
  | abandon {p rest} (hp : w.position = .closing) (hq : w.queue = p :: rest) :
    Move w d ({ w with queue := rest }.abandon d p)
  | stop (hp : w.position = .closing) (hq : w.queue = []) : Move w d (w.stop d)

variable {w : Worker} {d : Depot}

theorem failed_move {p : Parcel} {n : UInt32} {out : Outbound} (hp : w.position = .sending p n out) (e : SendError) :
    w.Move d (w.failed (d.failed out e) p n e) := by
  unfold failed
  split
  · next hv => exact .fail hp hv
  · next hv => exact .pause hp hv

theorem send_move {p : Parcel} {n : UInt32} (hp : w.position = .due p n) : w.Move d (w.send d p n) := by
  unfold send
  split
  · obtain ⟨f, hv⟩ := w.handling.verdict?_cancelled p n
    simp only [failed, hv]
    exact .yield (.due hp hv)
  · rcases hl : d.load w.reportLosses p.envelope with ⟨out, d'⟩
    simp only
    split
    · next hn => exact .blank hp hl hn
    · next hn => exact .hand hp hl (by simpa using hn)

theorem step?_move {x : Stride} (h : w.step? d = some x) : w.Move d x := by
  unfold step? at h
  split at h
  · next hp =>
    unfold next? at h
    split at h
    · next hs => cases h; exact .close hp hs.1
    · split at h
      · next hq => cases h; exact .take hp hq
      · split at h
        · cases h
        · next hs => cases h; exact .close hp hs
  · next hp => cases h; exact .begin hp
  · next hp => cases h; exact send_move hp
  · next hp =>
    split at h
    · cases h; exact failed_move hp _
    · cases h
  · next hp =>
    split at h
    · cases h; exact .yield (.pausing hp)
    · cases h
  · next hp =>
    split at h
    · next hq => cases h; exact .abandon hp hq
    · next hq => cases h; exact .stop hp hq
  · cases h

theorem sending?_eq_some {p : Parcel} {out : Outbound} (h : w.sending? = some (p, out)) :
    ∃ n, w.position = .sending p n out := by
  unfold sending? at h
  split at h
  · next n _ hp => cases h; exact ⟨n, hp⟩
  · cases h

theorem answered_ok {p : Parcel} {n : UInt32} {out : Outbound} (hp : w.position = .sending p n out) :
    w.answered d (.ok ()) = w.conclude d p .delivered := by
  simp only [answered, hp]

theorem answered_move {p : Parcel} {n : UInt32} {out : Outbound} (hp : w.position = .sending p n out)
    (e : SendError) : w.Move d (w.answered d (.error e)) := by
  simp only [answered, hp]
  exact failed_move hp e

theorem isPausing_eq_true (h : w.isPausing = true) : ∃ p n, w.position = .pausing p n := by
  unfold isPausing at h
  split at h
  · next p n hp => exact ⟨p, n, hp⟩
  · cases h

/-! ## Those who wait -/

inductive Polled (w : Worker) : Worker → Prop
  | same : Polled w w
  | report (hc : w.isClosed = false) : Polled w (w.pushUnreserved {} none)
  | begun (hs : w.phase = .running) : Polled w { w with phase := .shuttingDown }
  | ended (hs : w.phase = .running) : Polled w { w with phase := .shuttingDown, aborted := true }
  | aborted : Polled w w.abort

theorem unlessLate_fst (now deadline : Nat) (w : Worker) (x : Wait) : (Wait.unlessLate now deadline w x).1 = w := by
  unfold Wait.unlessLate
  split <;> rfl

/-- Losses are to be reported, and the queue still takes a parcel for that. -/
def reportDue (w : Worker) (d : Depot) : Prop :=
  w.reportLosses = true ∧ (∃ n, d.ledger.pendingTotal = .ok n ∧ n ≠ 0) ∧ w.isClosed = false

/-- Losses are to be reported, and they are more than a word can say. -/
def reportBroken (w : Worker) (d : Depot) : Prop := w.reportLosses = true ∧ d.ledger.pendingTotal = .error {}

/-- What one finds who asks for the losses. -/
inductive Asked (w : Worker) (d : Depot) (now deadline : Nat) : Worker × Wait → Prop
  | quiet (hr : ¬ w.reportDue d) (hb : ¬ w.reportBroken d) : Asked w d now deadline (w, .done (some true))
  | reports (hr : w.reportDue d) : Asked w d now deadline
    (Wait.unlessLate now deadline (w.pushUnreserved {} none) (.processed (w.accepted + 1) deadline true))
  | broken (hb : w.reportBroken d) : Asked w d now deadline (w, .broken)

theorem report_asked (w : Worker) (d : Depot) (now deadline : Nat) :
    w.Asked d now deadline (Wait.report now deadline w d) := by
  unfold Wait.report
  cases hl : w.reportLosses with
  | false => exact .quiet (fun h => by simp [h.1] at hl) fun h => by simp [h.1] at hl
  | true =>
    rw [Bool.not_true, if_neg nofun]
    cases hp : d.ledger.pendingTotal with
    | error => exact .broken ⟨hl, hp⟩
    | ok n =>
      have hb : ¬ w.reportBroken d := by
        rintro ⟨-, hb⟩
        rw [hp] at hb
        cases hb
      dsimp only
      by_cases hn : n = 0
      · rw [if_pos hn]
        refine .quiet ?_ hb
        rintro ⟨-, ⟨m, hm, hz⟩, -⟩
        rw [hp, Except.ok.injEq] at hm
        exact hz (hm ▸ hn)
      · rw [if_neg hn, pushReport]
        cases hc : w.isClosed with
        | true => exact .quiet (fun h => by simp [h.2.2] at hc) hb
        | false => exact .reports ⟨hl, ⟨n, hp, hn⟩, hc⟩

theorem report_polled (now deadline : Nat) : w.Polled (Wait.report now deadline w d).1 := by
  have ha := w.report_asked d now deadline
  generalize Wait.report now deadline w d = x at ha
  cases ha with
  | quiet => exact .same
  | reports hr =>
    rw [unlessLate_fst]
    exact .report hr.2.2
  | broken => exact .same

theorem pollProcessed_polled (now target deadline : Nat) (reported : Bool) :
    w.Polled (Wait.pollProcessed now w d target deadline reported).1 := by
  unfold Wait.pollProcessed
  split
  · split
    · exact .same
    · exact report_polled now deadline
  · rw [unlessLate_fst]; exact .same

theorem pollStopped_polled (now deadline : Nat) : w.Polled (Wait.pollStopped now w deadline).1 := by
  unfold Wait.pollStopped
  split
  · exact .same
  · rw [unlessLate_fst]; exact .same

theorem beginShutdown_of_running (hs : w.phase = .running) :
    w.beginShutdown = (true, { w with phase := .shuttingDown }) := if_pos hs

theorem beginShutdown_of_not_running (hs : w.phase ≠ .running) : w.beginShutdown = (false, w) := if_neg hs

theorem poll_shutdown_polled (now : Nat) : w.Polled (Wait.poll now w d (.begun .shutdown)).1 := by
  by_cases hs : w.phase = .running
  · simp only [Wait.poll, beginShutdown_of_running hs, Bool.not_true, Bool.false_eq_true, ite_false]
    split
    · exact .ended hs
    · exact .begun hs
  · simp only [Wait.poll, beginShutdown_of_not_running hs, Bool.not_false, ite_true]
    exact .same

theorem poll_polled (now : Nat) (x : Wait) : w.Polled (x.poll now w d).1 := by
  cases x with
  | begun e =>
    cases e with
    | flush t =>
      simp only [Wait.poll]
      split
      · exact .same
      · exact pollProcessed_polled ..
    | shutdown => exact poll_shutdown_polled now
    | stopped t => exact pollStopped_polled ..
  | processed target deadline reported => exact pollProcessed_polled ..
  | draining deadline =>
    simp only [Wait.poll]
    split
    · exact .same
    · split
      · exact .aborted
      · exact .same
  | givingUp => exact .same
  | stopped deadline => exact pollStopped_polled ..
  | done r => exact .same
  | broken => exact .same

/-! ## Offers -/

inductive Offered (w : Worker) (d : Depot) (e : Envelope) : Except DeliveryError Bool × Worker × Depot → Prop
  | taken (hs : w.phase = .running) (he : e.isEmpty = false) (hr : w.queued < w.capacity) :
    Offered w d e (.ok true, w.pushReserved e, d)
  | disposed (hs : w.phase ≠ .running) : Offered w d e (.error .disposed, w, d)
  | empty (he : e.isEmpty = true) : Offered w d e (.ok false, w, d)
  | full : Offered w d e (.ok false, w, d.noteOverflow)

theorem enqueue_offered (w : Worker) (d : Depot) (e : Envelope) : w.Offered d e (w.enqueue d e) := by
  unfold enqueue
  split
  · next hs => exact .disposed hs
  · next hs =>
    split
    · next he => exact .empty he
    · next he =>
      split
      · next hr => exact .taken (Classical.not_not.mp hs) (by simpa using he) hr
      · exact .full

end Worker

/-! ## Changes of a desk -/

/-- Counts a refused envelope if the caller does. -/
def Depot.counted (d : Depot) (e : Envelope) (reason? : Option LossReason) : Depot :=
  match reason? with
  | some reason => d.account reason e
  | none => d

/-- As `d`, but for what the monitor has seen. -/
structure Depot.Like (d d' : Depot) : Prop where
  ledger : d'.ledger = d.ledger
  clock : d'.clock = d.clock
  storage : d'.storage = d.storage

namespace Desk

inductive Change (k : Desk) (d : Depot) : Desk → Depot → Prop
  | step {x} (hm : k.worker.Move d x) (hx : k.worker.step? d = some x) : Change k d (k.moved x) x.depot
  | error {p n out} (hp : k.worker.position = .sending p n out) (e : SendError) :
    Change k d { k.moved (k.worker.answered d (.error e)) with answers := k.answers ++ [(p, out, .error e)] }
      (k.worker.answered d (.error e)).depot
  | arrive {p n out} (hp : k.worker.position = .sending p n out) :
    Change k d { k.moved (k.worker.conclude d p .delivered) with answers := k.answers ++ [(p, out, .ok ())] }
      (k.worker.conclude d p .delivered).depot
  | resume {p n} (hp : k.worker.position = .pausing p n) :
    Change k d { k with worker := { k.worker with position := .due p (n + 1) } } d
  | accept {e} (hs : k.worker.phase = .running) (he : e.isEmpty = false) (hr : k.worker.queued < k.worker.capacity) :
    Change k d { k with worker := k.worker.pushReserved e, accepted := k.accepted ++ [e] } d
  | refuse {d'} (e : Envelope) (reason? : Option LossReason) (hd : d.Like d') :
    Change k d { k with refused := k.refused ++ [(e, reason?)] } (d'.counted e reason?)
  | polled {w'} (waits : List Wait) (hw : k.worker.Polled w') :
    Change k d { k with worker := w', waits := waits } d

variable {k k' : Desk} {d d' : Depot}

theorem answer_change {r : Except SendError Unit} (h : k.act? d (.answer r) = some (k', d')) : k.Change d k' d' := by
  unfold act? at h
  simp only at h
  split at h
  · next p out hs =>
    obtain ⟨n, hp⟩ := Worker.sending?_eq_some hs
    split at h
    · cases h
    · cases h
      cases r with
      | ok u =>
        cases u
        rw [Worker.answered_ok hp]
        exact .arrive hp
      | error e => exact .error hp e
  · cases h

theorem resume_change (h : k.act? d .resume = some (k', d')) : k.Change d k' d' := by
  unfold act? at h
  simp only at h
  split at h
  · next hb =>
    simp only [Bool.and_eq_true] at hb
    obtain ⟨p, n, hp⟩ := Worker.isPausing_eq_true hb.1
    cases h
    simp only [Worker.resumed, hp]
    exact .resume hp
  · cases h

theorem offer_change (k : Desk) (d : Depot) (e : Envelope) (reason? : Option LossReason) :
    k.Change d (k.offered d e reason?).1 (k.offered d e reason?).2 := by
  unfold offered
  have ho := Worker.enqueue_offered k.worker d e
  generalize k.worker.enqueue d e = x at ho
  cases ho with
  | taken hs he hr => exact .accept hs he hr
  | disposed => exact .refuse e reason? ⟨rfl, rfl, rfl⟩
  | empty => exact .refuse e reason? ⟨rfl, rfl, rfl⟩
  | full => exact .refuse e reason? ⟨rfl, rfl, rfl⟩

theorem act?_change {a : Act} (h : k.act? d a = some (k', d')) : k.Change d k' d' := by
  cases a with
  | step =>
    obtain ⟨x, hx, he⟩ := Option.map_eq_some_iff.mp h
    cases he
    exact .step (Worker.step?_move hx) hx
  | answer r => exact answer_change h
  | resume => exact resume_change h
  | offer e reason? =>
    have he : k.offered d e reason? = (k', d') := Option.some.inj h
    have hc := offer_change k d e reason?
    rwa [he] at hc
  | call e =>
    cases h
    exact .polled _ .same
  | look n now =>
    obtain ⟨x, _, he⟩ := Option.map_eq_some_iff.mp h
    cases he
    exact .polled _ (Worker.poll_polled now x)

theorem act?_accepted {a : Act} (h : k.act? d a = some (k', d')) :
    k'.accepted = k.accepted ∨ ∃ e reason?, a = .offer e reason? ∧ k'.accepted = k.accepted ++ [e] := by
  cases a with
  | step =>
    obtain ⟨x, _, he⟩ := Option.map_eq_some_iff.mp h
    cases he
    exact .inl rfl
  | answer r =>
    simp only [act?] at h
    split at h
    · split at h <;> cases h
      exact .inl rfl
    · cases h
  | resume =>
    simp only [act?] at h
    split at h <;> cases h
    exact .inl rfl
  | offer e reason? =>
    have he : k.offered d e reason? = (k', d') := Option.some.inj h
    unfold offered at he
    split at he
    · cases he
      exact .inr ⟨e, reason?, rfl, rfl⟩
    · cases he
      exact .inl rfl
  | call e => cases h; exact .inl rfl
  | look n now =>
    obtain ⟨x, _, he⟩ := Option.map_eq_some_iff.mp h
    cases he
    exact .inl rfl

end Desk

/-! ## Changes of an office -/

namespace Office

theorem getElem?_set_cases {α : Type} {xs : List α} {i j : Nat} {a b : α} (h : (xs.set i a)[j]? = some b) :
    (i = j ∧ b = a) ∨ (i ≠ j ∧ xs[j]? = some b) := by
  rw [List.getElem?_set] at h
  split at h
  · next hij =>
    split at h
    · exact .inl ⟨hij, (Option.some.inj h).symm⟩
    · cases h
  · next hij => exact .inr ⟨hij, h⟩

theorem getElem?_snoc_cases {α : Type} {xs : List α} {i : Nat} {a b : α} (h : (xs ++ [b])[i]? = some a) :
    xs[i]? = some a ∨ (i = xs.length ∧ a = b) := by
  rcases Nat.lt_or_ge i xs.length with hi | hi
  · rw [List.getElem?_append_left hi] at h
    exact .inl h
  · rw [List.getElem?_append_right hi] at h
    obtain ⟨hi', rfl⟩ := List.getElem?_eq_some_iff.mp h
    simp only [List.length_singleton] at hi'
    exact .inr ⟨by omega, by simp⟩

theorem forall_mem_set {α : Type} {P : α → Prop} {xs : List α} {i : Nat} {a : α} (h : ∀ x ∈ xs, P x) (ha : P a) :
    ∀ x ∈ xs.set i a, P x := by
  intro x hx
  rcases List.mem_or_eq_of_mem_set hx with hx | rfl
  · exact h x hx
  · exact ha

variable {s t : Office} {i : Nat} {a : Act}

theorem after?_act (h : s.after? (.desk i a) = some t) :
    ∃ k k', s.desks[i]? = some k ∧ k.act? s.depot a = some (k', t.depot) ∧ t.desks = s.desks.set i k' ∧
      t.names = s.names + (k'.worker.sequence - k.worker.sequence).toNat := by
  obtain ⟨k, hk, h⟩ := Option.bind_eq_some_iff.mp h
  obtain ⟨⟨k', d'⟩, ha, h⟩ := Option.map_eq_some_iff.mp h
  cases h
  exact ⟨k, k', hk, ha, rfl, rfl⟩

theorem after?_desk (h : s.after? (.desk i a) = some t) :
    ∃ k k', s.desks[i]? = some k ∧ k.Change s.depot k' t.depot ∧ t.desks = s.desks.set i k' ∧
      t.names = s.names + (k'.worker.sequence - k.worker.sequence).toNat := by
  obtain ⟨k, k', hk, ha, ht⟩ := after?_act h
  exact ⟨k, k', hk, Desk.act?_change ha, ht⟩

theorem started_desks (s : Office) (durable : Bool) (settings : Settings) :
    (s.started durable settings).desks = s.desks ∨
      ∃ w, (s.started durable settings).desks = s.desks ++ [.opened w] ∧
        ((durable = false ∧ Worker.start settings = .ok w ∧
            (s.started durable settings).depot.storage = s.depot.storage) ∨
          (durable = true ∧
            Worker.startDurable settings s.depot.storage = (.ok w, (s.started durable settings).depot.storage))) := by
  cases durable with
  | false =>
    cases hw : Worker.start settings with
    | error e => exact .inl (by simp [started, hw])
    | ok w => exact .inr ⟨w, by simp [started, hw], .inl ⟨rfl, rfl, by simp [started, hw]⟩⟩
  | true =>
    rcases hw : Worker.startDurable settings s.depot.storage with ⟨e | w, storage⟩
    · exact .inl (by simp [started, hw])
    · exact .inr ⟨w, by simp [started, hw], .inr ⟨rfl, by simp [started, hw]⟩⟩

end Office

end Courier

import Courier.Proofs.Meanwhile
import Mathlib.Logic.ExistsUnique

/-!
# Tries

A worker that keeps envelopes in files sends one again only after a transient failure, and not for ever. However the
transport answers and whenever the worker is told to give up, each envelope ends in one way: it is delivered, or
dropped and counted as lost, or interrupted, and then it waits in its file or is counted as lost.
-/

namespace Courier

/-! ## Files -/

namespace MemoryFiles

theorem find?_insert (p : Path) (data : Bytes) (files : List (Path × Bytes)) :
    ((insert p data files).find? (·.1.same p)).map Prod.snd = some data := by
  induction files with
  | nil => simp [insert, p.same_refl]
  | cons x files ih =>
    obtain ⟨q, old⟩ := x
    unfold insert
    by_cases hs : q.same p = true
    · simp [hs]
    · rw [if_neg hs]
      by_cases hb : p.before q = true
      · simp [hb, p.same_refl]
      · rw [if_neg hb]
        simpa [hs] using ih

theorem find?_remove (m : MemoryFiles) (p : Path) : (m.remove p).find? p = none := by
  have hf : (m.remove p).files.find? (·.1.same p) = none := by
    rw [List.find?_eq_none]
    intro x hx
    have hn := (List.mem_filter.mp hx).2
    simpa using hn
  rw [find?, hf]
  rfl

end MemoryFiles

namespace Storage

theorem find?_holding (fs : Storage) (g : Path) (data : Bytes) : (fs.holding g data).files.find? g = some data :=
  MemoryFiles.find?_insert g data fs.files.files

/-- This file is gone, unless files cannot be removed. -/
def Lacks (fs : Storage) (file? : Option Path) : Prop :=
  ∀ g, file? = some g → fs.refusal? .remove = none → fs.files.find? g = none

theorem lacks_remove (fs : Storage) (file? : Option Path) : (SpillDir.remove fs file?).Lacks file? := by
  rintro g rfl hr
  simp only [SpillDir.remove, Storage.remove] at hr ⊢
  cases hf : fs.refusal? .remove with
  | some e =>
    rw [hf] at hr
    cases hf.symm.trans hr
  | none => exact fs.files.find?_remove g

end Storage

/-- What stands in the file of a parcel, or will stand there. -/
def Parcel.content (p : Parcel) (d : Depot) : Option Bytes :=
  match p.file with
  | some g => d.storage.files.find? g
  | none => some p.envelope.toBytes

/-! ## Tries -/

/-- The sends of a parcel. -/
structure Tries where
  parcel : Parcel
  /-- Those that failed, and what the transport said: they were transient failures. -/
  failures : List (Outbound × String) := []
  /-- The one after them, if there is one, and the answer to it, if there is one. -/
  last? : Option (Outbound × Option (Except SendError Unit)) := none

namespace Tries

variable {t : Tries} {p : Parcel} {max : UInt32} {out : Outbound}

def sends (t : Tries) : List Outbound := t.failures.map Prod.fst ++ (t.last?.map Prod.fst).toList

def handed (t : Tries) : List (Parcel × Outbound) := t.sends.map fun out => (t.parcel, out)

def answers (t : Tries) : List (Parcel × Outbound × Except SendError Unit) :=
  (t.failures.map fun x => (t.parcel, x.1, .error (.transient x.2))) ++
    (t.last?.bind fun x => x.2.map fun r => (t.parcel, x.1, r)).toList

/-- What is lent to a send that has no answer yet. -/
def lent (t : Tries) (l : Loss) : UInt64 :=
  match t.last? with
  | some (out, none) => out.carries l
  | _ => 0

theorem lent_of_last {t : Tries} (hl : t.last? = none) : t.lent = fun _ => 0 := by
  funext l
  simp [lent, hl]

theorem lent_of_sending {t : Tries} (hl : t.last? = some (out, none)) : t.lent = out.carries := by
  funext l
  simp [lent, hl]

def again (t : Tries) (out : Outbound) : Tries := { t with last? := some (out, none) }

def told (t : Tries) (out : Outbound) (r : Except SendError Unit) : Tries := { t with last? := some (out, some r) }

/-- The last send was answered with a transient failure. -/
def failed (t : Tries) (out : Outbound) (m : String) : Tries :=
  { t with failures := t.failures ++ [(out, m)], last? := none }

theorem handed_again (hl : t.last? = none) (out : Outbound) :
    (t.again out).handed = t.handed ++ [(t.parcel, out)] := by
  simp [handed, sends, again, hl]

theorem answers_again (hl : t.last? = none) (out : Outbound) : (t.again out).answers = t.answers := by
  simp [answers, again, hl]

theorem sends_told (hl : t.last? = some (out, none)) (r : Except SendError Unit) : (t.told out r).sends = t.sends := by
  simp [sends, told, hl]

theorem handed_told (hl : t.last? = some (out, none)) (r : Except SendError Unit) :
    (t.told out r).handed = t.handed := by
  simp [handed, sends, told, hl]

theorem answers_told (hl : t.last? = some (out, none)) (r : Except SendError Unit) :
    (t.told out r).answers = t.answers ++ [(t.parcel, out, r)] := by
  simp [answers, told, hl]

theorem handed_failed (hl : t.last? = some (out, none)) (m : String) : (t.failed out m).handed = t.handed := by
  simp [handed, sends, failed, hl]

theorem answers_failed (hl : t.last? = some (out, none)) (m : String) :
    (t.failed out m).answers = t.answers ++ [(t.parcel, out, .error (.transient m))] := by
  simp [answers, failed, hl]

/-- A send that another one follows was answered with a transient failure. -/
theorem repeated (t : Tries) {i : Nat} {out : Outbound} (ho : t.sends[i]? = some out) (hi : i + 1 < t.sends.length) :
    ∃ m, t.answers[i]? = some (t.parcel, out, .error (.transient m)) := by
  have hlen : t.sends.length ≤ t.failures.length + 1 := by
    unfold sends
    cases t.last? <;> simp
  have hf : i < t.failures.length := by omega
  rw [sends, List.getElem?_append_left (by simpa using hf), List.getElem?_map] at ho
  rw [answers, List.getElem?_append_left (by simpa using hf), List.getElem?_map]
  obtain ⟨x, hx, rfl⟩ := Option.map_eq_some_iff.mp ho
  exact ⟨x.2, by rw [hx]; rfl⟩

/-- How far a parcel is, when the worker has gone on so often since it was taken. -/
inductive At (max : UInt32) (p : Parcel) (t : Tries) : Nat → Position → Prop
  | taken (ht : t = { parcel := p }) : At max p t 0 (.taken p)
  | due {m n} (hn : n.toNat = t.failures.length + 1) (hmax : n ≤ max) (hl : t.last? = none)
    (hm : m ≤ 3 * t.failures.length + 1) : At max p t m (.due t.parcel n)
  | sending {m n out} (hn : n.toNat = t.failures.length + 1) (hmax : n ≤ max) (hl : t.last? = some (out, none))
    (hm : m ≤ 3 * t.failures.length + 2) : At max p t m (.sending t.parcel n out)
  | pausing {m n} (hn : n.toNat = t.failures.length) (hmax : n < max) (hl : t.last? = none)
    (hm : m ≤ 3 * t.failures.length) : At max p t m (.pausing t.parcel n)

theorem At.few {m : Nat} {x : Position} (h : At max p t m x) (hone : 1 ≤ max) :
    t.sends.length ≤ max.toNat ∧ m < 3 * max.toNat := by
  cases h with
  | taken ht =>
    subst ht
    have hone := UInt32.le_iff_toNat_le.mp hone
    simp only [UInt32.toNat_one] at hone
    exact ⟨Nat.zero_le _, by omega⟩
  | due hn hmax hl hm =>
    have hmax := UInt32.le_iff_toNat_le.mp hmax
    simp only [sends, hl, Option.map_none, Option.toList_none, List.append_nil, List.length_map]
    omega
  | sending hn hmax hl hm =>
    have hmax := UInt32.le_iff_toNat_le.mp hmax
    simp only [sends, hl, Option.map_some, Option.toList_some, List.length_append, List.length_map,
      List.length_singleton]
    omega
  | pausing hn hmax hl hm =>
    have hmax := UInt32.lt_iff_toNat_lt.mp hmax
    simp only [sends, hl, Option.map_none, Option.toList_none, List.append_nil, List.length_map]
    omega

end Tries

/-! ## One send -/

namespace Worker

variable {w : Worker} {s : SpillDir} {retry : RetryPolicy}

/-- How a worker that keeps envelopes in files goes on after a send. -/
inductive Returned (w : Worker) (retry : RetryPolicy) (d : Depot) (p : Parcel) (n : UInt32) :
    Except SendError Unit → Stride → Prop
  | delivered : Returned w retry d p n (.ok ()) (w.conclude d p .delivered)
  | interrupted : Returned w retry d p n (.error .cancelled) (w.conclude d p p.interrupted)
  | dropped {e} (hc : e ≠ .cancelled) (ht : e.isTransient = false ∨ retry.allows n = false) :
    Returned w retry d p n (.error e) (w.conclude d p (.failed e))
  | pausing (m : String) (ha : retry.allows n = true) :
    Returned w retry d p n (.error (.transient m)) ⟨{ w with position := .pausing p n }, d, none⟩

theorem returned_cancelled (hh : w.handling = .durable s retry) (d : Depot) (p : Parcel) (n : UInt32) :
    w.returned d p n (.error .cancelled) = w.conclude d p p.interrupted := by
  simp only [returned, failed, hh, Handling.verdict?]

theorem returned_durable (hh : w.handling = .durable s retry) (d : Depot) (p : Parcel) (n : UInt32)
    (r : Except SendError Unit) : w.Returned retry d p n r (w.returned d p n r) := by
  cases r with
  | ok u => exact .delivered
  | error e =>
    cases e with
    | cancelled =>
      rw [returned_cancelled hh]
      exact .interrupted
    | transient m =>
      cases ha : retry.allows n with
      | true =>
        have hv : w.handling.verdict? p n (.transient m) = none := by
          simp [hh, Handling.verdict?, ha, SendError.isTransient]
        simp only [returned, failed, hv]
        exact .pausing m ha
      | false =>
        simp only [returned, failed, hh, Handling.verdict?, ha, Bool.and_false]
        exact .dropped (by simp) (.inr ha)
    | rejected =>
      simp only [returned, failed, hh, Handling.verdict?]
      exact .dropped (by simp) (.inl rfl)
    | rateLimited =>
      simp only [returned, failed, hh, Handling.verdict?]
      exact .dropped (by simp) (.inl rfl)

theorem begin_durable (hh : w.handling = .durable s retry) (d : Depot) (p : Parcel) :
    ∃ s' file, (w.begin d p).worker =
        { w with handling := .durable s' retry, position := .due { p with file := file } 1 } ∧
      (p.file = file ∧ (w.begin d p).depot.storage = d.storage ∨
        p.file = none ∧ ∀ g, file = some g →
          (w.begin d p).depot.storage.files.find? g = some p.envelope.toBytes) := by
  cases hf : p.file with
  | some g =>
    have hp : { p with file := some g } = p := by rw [← hf]
    exact ⟨s, some g, by simp only [begin, hf, hp, hh], .inl ⟨rfl, by simp only [begin, hf]⟩⟩
  | none =>
    obtain ⟨h, hw⟩ := spill_worker w d p.envelope
    have hput := spill_put w d p.envelope
    simp only [begin, hf]
    rw [hw] at hput ⊢
    rw [hh] at hput
    simp only at hput
    generalize (w.spill d p.envelope).1 = r at hput ⊢
    generalize (w.spill d p.envelope).2.2.storage = fs at hput ⊢
    cases hput with
    | refused hr => exact ⟨s, r.file?, rfl, .inr ⟨trivial, by simp [hr]⟩⟩
    | @wasted s' retry' hd => cases hd; exact ⟨_, none, rfl, .inr ⟨trivial, by simp⟩⟩
    | @written s' retry' hd =>
      cases hd
      refine ⟨_, some _, rfl, .inr ⟨trivial, ?_⟩⟩
      rintro g ⟨⟩
      exact d.storage.find?_holding _ _

end Worker

/-! ## A parcel in hand -/

namespace Desk

variable {k k₁ k' : Desk} {d d₁ d' : Depot} {p : Parcel} {retry : RetryPolicy} {more : Loss → UInt64} {m : Nat}
  {t : Tries}

/-- There is an envelope in hand, and others leave its file alone. -/
def InHand (k : Desk) (d : Depot) : Occurrence → Prop
  | .here _ => k.worker.hand?.isSome = true
  | .elsewhere _ _ _ storage => ∃ p, k.worker.hand? = some p ∧
      ∀ g, p.file = some g → (storage d.storage).files.find? g = d.storage.files.find? g

/-- What became of a parcel since it was taken, as long as it is in hand. -/
structure Holds (k : Desk) (d : Depot) (p : Parcel) (retry : RetryPolicy) (m : Nat) (more : Loss → UInt64) (t : Tries)
    (k' : Desk) (d' : Depot) : Prop where
  handling : ∃ s, k'.worker.handling = .durable s retry
  place : t.At retry.maxAttempts p m k'.worker.position
  envelope : t.parcel.envelope = p.envelope
  file : ∀ g, p.file = some g → t.parcel.file = some g
  content : ∀ g, t.parcel.file = some g → d'.storage.files.find? g = p.content d
  handed : k'.handed = k.handed ++ t.handed
  answers : k'.answers = k.answers ++ t.answers
  settled : k'.settled = k.settled
  ledger : d.ledger.Lends more t.lent d'.ledger

theorem Holds.hand (h : k.Holds d p retry m more t k₁ d₁) : k₁.worker.hand? = some t.parcel := by
  have hp := h.place
  unfold Worker.hand?
  cases hx : k₁.worker.position with
  | taken q =>
    rw [hx] at hp
    cases hp with
    | taken ht => rw [ht]
  | due q n => rw [hx] at hp; cases hp; rfl
  | sending q n out => rw [hx] at hp; cases hp; rfl
  | pausing q n => rw [hx] at hp; cases hp; rfl
  | idle => rw [hx] at hp; cases hp
  | closing => rw [hx] at hp; cases hp
  | stopped => rw [hx] at hp; cases hp

theorem holds_taken {s : SpillDir} (hp : k.worker.position = .taken p) (hh : k.worker.handling = .durable s retry) :
    k.Holds d p retry 0 (fun _ => 0) { parcel := p } k d where
  handling := ⟨s, hh⟩
  place := by rw [hp]; exact .taken rfl
  envelope := rfl
  file := fun g hg => hg
  content := fun g hg => by rw [Parcel.content, show p.file = some g from hg]
  handed := by simp [Tries.handed, Tries.sends]
  answers := by simp [Tries.answers]
  settled := rfl
  ledger := ⟨rfl, fun l => Ledger.gain_zero _, fun l => by simp [Tries.lent]⟩

theorem Holds.still {add : Loss → UInt64} (h : k.Holds d p retry m more t k₁ d₁) (hs : k₁.Still d₁ add k' d')
    (hf : ∀ g, t.parcel.file = some g → d'.storage.files.find? g = d₁.storage.files.find? g) :
    k.Holds d p retry m (fun l => more l + add l) t k' d' where
  handling := by rw [hs.handling]; exact h.handling
  place := by rw [hs.position]; exact h.place
  envelope := h.envelope
  file := h.file
  content := fun g hg => (hf g hg).trans (h.content g hg)
  handed := hs.handed.trans h.handed
  answers := hs.answers.trans h.answers
  settled := hs.settled.trans h.settled
  ledger := h.ledger.grow hs.ledger

theorem Holds.occurs {o : Occurrence} {add : Loss → UInt64} (h : k.Holds d p retry m more t k₁ d₁)
    (ha : k₁.InHand d₁ o) (hown : o.isOwn = false) (hr : k₁.Records d₁ o add)
    (ho : k₁.occurs? d₁ o = some (k', d')) : k.Holds d p retry m (fun l => more l + add l) t k' d' := by
  refine h.still (still_occurs hown hr ho) fun g hg => ?_
  cases o with
  | here a => rw [(still_happens hown ho).2]
  | elsewhere ledger clock monitor storage =>
    obtain ⟨q, hq, hfile⟩ := ha
    cases h.hand.symm.trans hq
    cases ho
    exact hfile g hg

end Desk

/-! ## Endings -/

inductive Ending
  | delivered
  | dropped
  | interrupted
  deriving DecidableEq, Repr

namespace Desk

variable {k k₁ k' : Desk} {d d₁ d' back : Depot} {p : Parcel} {retry : RetryPolicy} {more : Loss → UInt64} {m : Nat}
  {max : UInt32} {t : Tries} {out : Outbound}

/-- How it ended with a parcel that was taken at this desk. -/
def EndsAs (k : Desk) (d : Depot) (p : Parcel) (max : UInt32) (more : Loss → UInt64) (t : Tries) (k' : Desk)
    (d' : Depot) : Ending → Prop
  | .delivered => ∃ out, t.last? = some (out, some (.ok ())) ∧
    k'.settled = k.settled ++ [(t.parcel, .delivered)] ∧ d'.storage.Lacks t.parcel.file ∧
    ∀ l, d'.ledger.pending l + out.carries l = d.ledger.pending l + d.ledger.gain (more l)
  | .dropped => ∃ out e, t.last? = some (out, some (.error e)) ∧ e ≠ .cancelled ∧
    (e.isTransient = false ∨ t.sends.length = max.toNat) ∧
    k'.settled = k.settled ++ [(t.parcel, .failed e)] ∧ d'.storage.Lacks t.parcel.file ∧
    d.ledger.Grows (fun l => more l + p.envelope.lossAs (some e.lossReason) l) d'.ledger
  | .interrupted =>
    (k'.worker.aborted = true ∧ (∀ out r, t.last? ≠ some (out, some r)) ∨
      ∃ out, t.last? = some (out, some (.error .cancelled))) ∧
    match t.parcel.file with
    | some g => k'.settled = k.settled ++ [(t.parcel, .kept g)] ∧ d'.storage.files.find? g = p.content d ∧
      d.ledger.Grows more d'.ledger
    | none => k'.settled = k.settled ++ [(t.parcel, .failed .cancelled)] ∧
      d.ledger.Grows (fun l => more l + p.envelope.lossAs (some .sendError) l) d'.ledger

/-- It is settled once, as it ended. -/
theorem EndsAs.settled {x : Ending} (hx : k.EndsAs d p max more t k' d' x) :
    ∃ f, k'.settled = k.settled ++ [(t.parcel, f)] ∧
      match x with
      | .delivered => f = .delivered
      | .dropped => ∃ e, e ≠ .cancelled ∧ f = .failed e
      | .interrupted => f = .failed .cancelled ∨ ∃ g, f = .kept g := by
  cases x with
  | delivered =>
    obtain ⟨out, -, hs, -⟩ := hx
    exact ⟨_, hs, rfl⟩
  | dropped =>
    obtain ⟨out, e, -, hc, -, hs, -⟩ := hx
    exact ⟨_, hs, e, hc, rfl⟩
  | interrupted =>
    obtain ⟨-, hx⟩ := hx
    split at hx
    · next g _ => exact ⟨_, hx.1, .inr ⟨g, rfl⟩⟩
    · exact ⟨_, hx.1, .inl rfl⟩

theorem EndsAs.unique {x y : Ending} (hx : k.EndsAs d p max more t k' d' x) (hy : k.EndsAs d p max more t k' d' y) :
    x = y := by
  obtain ⟨f, hf, hfx⟩ := hx.settled
  obtain ⟨g, hg, hgy⟩ := hy.settled
  obtain rfl : f = g := by simpa using List.append_cancel_left (hf.symm.trans hg)
  cases x <;> cases y <;> grind

theorem endsAs_interrupted (he : t.parcel.envelope = p.envelope) (hl : d.ledger.Grows more back.ledger)
    (hc : ∀ g, t.parcel.file = some g → back.storage.files.find? g = p.content d)
    (hwhy : k'.worker.aborted = true ∧ (∀ out r, t.last? ≠ some (out, some r)) ∨
      ∃ out, t.last? = some (out, some (.error .cancelled)))
    (hs : k'.settled = k.settled ++ [(t.parcel, t.parcel.interrupted)]) :
    k.EndsAs d p max more t k' (Worker.settle back t.parcel t.parcel.interrupted) .interrupted := by
  refine ⟨hwhy, ?_⟩
  unfold Parcel.interrupted at hs ⊢
  cases hf : t.parcel.file with
  | some g =>
    rw [hf] at hs
    exact ⟨hs, hc g hf, hl⟩
  | none =>
    rw [hf] at hs
    refine ⟨hs, ?_⟩
    rw [← he]
    exact hl.trans (Worker.settle_grows back t.parcel (.failed .cancelled))

theorem endsAs_delivered (hl : d.ledger.Lends more out.carries back.ledger)
    (ht : t.last? = some (out, some (.ok ()))) (hs : k'.settled = k.settled ++ [(t.parcel, .delivered)]) :
    k.EndsAs d p max more t k' (Worker.settle back t.parcel .delivered) .delivered :=
  ⟨out, ht, hs, back.storage.lacks_remove _, hl.pending⟩

theorem endsAs_dropped {e : SendError} (he : t.parcel.envelope = p.envelope) (hl : d.ledger.Grows more back.ledger)
    (ht : t.last? = some (out, some (.error e))) (hc : e ≠ .cancelled)
    (hn : e.isTransient = false ∨ t.sends.length = max.toNat)
    (hs : k'.settled = k.settled ++ [(t.parcel, .failed e)]) :
    k.EndsAs d p max more t k' (Worker.settle back t.parcel (.failed e)) .dropped := by
  refine ⟨out, e, ht, hc, hn, hs, Storage.lacks_remove _ _, ?_⟩
  rw [← he]
  exact hl.trans (Worker.settle_grows back t.parcel (.failed e))

/-! ## Going on -/

/-- What was done with a parcel so far, when the worker has gone on so often since it was taken. -/
structure Tried (k : Desk) (p : Parcel) (max : UInt32) (m : Nat) (t : Tries) (k' : Desk) : Prop where
  envelope : t.parcel.envelope = p.envelope
  file : ∀ g, p.file = some g → t.parcel.file = some g
  handed : k'.handed = k.handed ++ t.handed
  answers : k'.answers = k.answers ++ t.answers
  few : t.sends.length ≤ max.toNat
  steps : m ≤ 3 * max.toNat

theorem Holds.tried (h : k.Holds d p retry m more t k₁ d₁) (hone : 1 ≤ retry.maxAttempts) :
    k.Tried p retry.maxAttempts m t k₁ :=
  ⟨h.envelope, h.file, h.handed, h.answers, (h.place.few hone).1, Nat.le_of_lt (h.place.few hone).2⟩

/-- It has ended with a parcel after one more step. -/
def Ended (k : Desk) (d : Depot) (p : Parcel) (max : UInt32) (m : Nat) (more : Loss → UInt64) (k' : Desk)
    (d' : Depot) : Prop :=
  ∃ t x, k.Tried p max m t k' ∧ k'.worker.hand? = none ∧ k.EndsAs d p max more t k' d' x

theorem moved_conclude (k : Desk) (w : Worker) (d : Depot) (p : Parcel) (f : Fate) :
    (k.moved (w.conclude d p f)).handed = k.handed ∧ (k.moved (w.conclude d p f)).answers = k.answers ∧
      (k.moved (w.conclude d p f)).settled = k.settled ++ [(p, f)] ∧
      (k.moved (w.conclude d p f)).worker.hand? = none ∧
      (k.moved (w.conclude d p f)).worker.aborted = w.aborted := by
  refine ⟨?_, rfl, rfl, rfl, Worker.release_aborted w p⟩
  simp [moved, Worker.conclude_sending?]

theorem Holds.grows (h : k.Holds d p retry m more t k₁ d₁) (hl : t.last? = none) : d.ledger.Grows more d₁.ledger := by
  have hledger := h.ledger
  rw [t.lent_of_last hl] at hledger
  exact hledger.giveBack (.refl d₁.ledger)

theorem Holds.interrupt (h : k.Holds d p retry m more t k₁ d₁) (hone : 1 ≤ retry.maxAttempts)
    (ha : k₁.worker.aborted = true) (hl : ∀ out r, t.last? ≠ some (out, some r))
    (hb : d.ledger.Grows more back.ledger) (hs : back.storage = d₁.storage) :
    k.Ended d p retry.maxAttempts (m + 1) more (k₁.moved (k₁.worker.conclude back t.parcel t.parcel.interrupted))
      (k₁.worker.conclude back t.parcel t.parcel.interrupted).depot := by
  obtain ⟨hhanded, hanswers, hsettled, hnone, haborted⟩ :=
    k₁.moved_conclude k₁.worker back t.parcel t.parcel.interrupted
  have hfew := h.place.few hone
  refine ⟨t, .interrupted, ⟨h.envelope, h.file, hhanded.trans h.handed, hanswers.trans h.answers, hfew.1, hfew.2⟩,
    hnone, ?_⟩
  rw [h.settled] at hsettled
  exact endsAs_interrupted h.envelope hb (fun g hg => by rw [hs]; exact h.content g hg)
    (.inl ⟨haborted.trans ha, hl⟩) hsettled

theorem Holds.sending {n : UInt32} (h : k.Holds d p retry m more t k₁ d₁)
    (hp : k₁.worker.position = .sending t.parcel n out) :
    n.toNat = t.failures.length + 1 ∧ n ≤ retry.maxAttempts ∧ t.last? = some (out, none) ∧
      m ≤ 3 * t.failures.length + 2 ∧ ∀ e, d.ledger.Grows more (d₁.failed out e).ledger := by
  have hplace := h.place
  rw [hp] at hplace
  cases hplace with
  | sending hn hmax hl hm =>
    have hledger := h.ledger
    rw [t.lent_of_sending hl] at hledger
    exact ⟨hn, hmax, hl, hm, fun e => hledger.giveBack (d₁.grows_failed out e)⟩

theorem Holds.told (h : k.Holds d p retry m more t k₁ d₁) (hone : 1 ≤ retry.maxAttempts)
    (hl : t.last? = some (out, none)) (r : Except SendError Unit) (f : Fate) (back : Depot) :
    k.Tried p retry.maxAttempts (m + 1) (t.told out r)
      { k₁.moved (k₁.worker.conclude back t.parcel f) with answers := k₁.answers ++ [(t.parcel, out, r)] } := by
  have hfew := h.place.few hone
  refine ⟨h.envelope, h.file, ?_, ?_, by rw [t.sends_told hl]; exact hfew.1, hfew.2⟩
  · rw [t.handed_told hl, ← h.handed]
    exact (k₁.moved_conclude k₁.worker back t.parcel f).1
  · rw [t.answers_told hl, ← List.append_assoc, ← h.answers]

theorem Holds.pauses {n : UInt32} {e : String} (h : k.Holds d p retry m more t k₁ d₁)
    (hp : k₁.worker.position = .sending t.parcel n out) (ha : retry.allows n = true) :
    k.Holds d p retry (m + 1) more (t.failed out e)
      { k₁.moved ⟨{ k₁.worker with position := .pausing t.parcel n }, d₁.failed out (.transient e), none⟩ with
        answers := k₁.answers ++ [(t.parcel, out, .error (.transient e))] }
      (d₁.failed out (.transient e)) := by
  obtain ⟨hn, hmax, hl, hm, hback⟩ := h.sending hp
  refine ⟨h.handling, ?_, h.envelope, h.file, ?_, ?_, ?_, ?_, ?_⟩
  · refine .pausing ?_ (by simpa [RetryPolicy.allows] using ha) rfl ?_
    · simp [Tries.failed, hn]
    · simp only [Tries.failed, List.length_append, List.length_singleton]
      omega
  · rw [Worker.failed_storage]
    exact h.content
  · rw [t.handed_failed hl]
    simpa [moved, Worker.sending?] using h.handed
  · rw [t.answers_failed hl, ← List.append_assoc, ← h.answers]
  · simpa [moved] using h.settled
  · rw [Tries.lent_of_last rfl]
    exact .of_grows (hback _)

/-- An answer ends it, or is a transient failure that another send may follow. -/
theorem Holds.answer {n : UInt32} (h : k.Holds d p retry m more t k₁ d₁) (hone : 1 ≤ retry.maxAttempts)
    (hp : k₁.worker.position = .sending t.parcel n out) (r : Except SendError Unit) :
    let x := k₁.worker.returned (d₁.after out r) t.parcel n r
    let k' := { k₁.moved x with answers := k₁.answers ++ [(t.parcel, out, r)] }
    (∃ t', k.Holds d p retry (m + 1) more t' k' x.depot) ∨ k.Ended d p retry.maxAttempts (m + 1) more k' x.depot := by
  obtain ⟨s, hh⟩ := h.handling
  obtain ⟨hn, hmax, hl, -, hback⟩ := h.sending hp
  have hset {f : Fate} (back : Depot) :
      (k₁.moved (k₁.worker.conclude back t.parcel f)).settled = k.settled ++ [(t.parcel, f)] := by
    rw [← h.settled]
    rfl
  have hx := k₁.worker.returned_durable hh (d₁.after out r) t.parcel n r
  simp only
  generalize k₁.worker.returned (d₁.after out r) t.parcel n r = x at hx
  cases hx with
  | delivered =>
    have hledger := h.ledger
    rw [t.lent_of_sending hl] at hledger
    exact .inr ⟨_, .delivered, h.told hone hl .., rfl, endsAs_delivered hledger rfl (hset _)⟩
  | interrupted =>
    refine .inr ⟨_, .interrupted, h.told hone hl .., rfl,
      endsAs_interrupted h.envelope (hback _) (fun g hg => ?_) (.inr ⟨out, rfl⟩) (hset _)⟩
    rw [Depot.after, Worker.failed_storage]
    exact h.content g hg
  | @dropped e hc ht =>
    refine .inr ⟨_, .dropped, h.told hone hl .., rfl,
      endsAs_dropped h.envelope (hback e) rfl hc (ht.imp_right fun ha => ?_) (hset _)⟩
    -- No other send is allowed, so this was the last one.
    have hmax := UInt32.le_iff_toNat_le.mp hmax
    have hge : retry.maxAttempts.toNat ≤ n.toNat := by
      simpa [RetryPolicy.allows, UInt32.le_iff_toNat_le] using ha
    rw [t.sends_told hl]
    simp only [Tries.sends, hl, Option.map_some, Option.toList_some, List.length_append, List.length_map,
      List.length_singleton]
    omega
  | pausing e ha => exact .inl ⟨_, h.pauses hp ha⟩

theorem Holds.begins {q : Parcel} (h : k.Holds d p retry m more t k₁ d₁) (hone : 1 ≤ retry.maxAttempts)
    (hp : k₁.worker.position = .taken q) :
    ∃ t', k.Holds d p retry (m + 1) more t' (k₁.moved (k₁.worker.begin d₁ q)) (k₁.worker.begin d₁ q).depot := by
  obtain ⟨s, hh⟩ := h.handling
  have hplace := h.place
  rw [hp] at hplace
  cases hplace with
  | taken ht =>
    subst ht
    obtain ⟨s', file, hw, hfile⟩ := k₁.worker.begin_durable hh d₁ p
    refine ⟨{ parcel := { p with file := file } }, ⟨s', by simp only [moved, hw]⟩, ?_, rfl, ?_, ?_, ?_, h.answers,
      ?_, ?_⟩
    · simp only [moved, hw]
      exact .due rfl hone rfl (Nat.le_refl _)
    · intro g hg
      rcases hfile with ⟨hf, -⟩ | ⟨hf, -⟩
      · exact hf.symm.trans hg
      · cases hf.symm.trans hg
    · intro g hg
      rcases hfile with ⟨hf, hs⟩ | ⟨hf, hs⟩
      · simp only [hs]
        exact h.content g (hf.trans hg)
      · rw [Parcel.content, hf]
        exact hs g hg
    · have hhanded : k₁.handed = k.handed ++ [] := h.handed
      simpa [moved, Worker.begin_sending?, Tries.handed, Tries.sends] using hhanded
    · simpa [moved, Worker.begin_settled] using h.settled
    · rw [Worker.begin_ledger]
      exact h.ledger

theorem Holds.hands {q : Parcel} {n : UInt32} (h : k.Holds d p retry m more t k₁ d₁)
    (hp : k₁.worker.position = .due q n) (hload : d₁.load k₁.worker.reportLosses q.envelope = (out, d')) :
    k.Holds d p retry (m + 1) more (t.again out)
      (k₁.moved ⟨{ k₁.worker with position := .sending q n out }, d', none⟩) d' := by
  have hplace := h.place
  rw [hp] at hplace
  cases hplace with
  | due hnum hmax hl hm =>
    have hlends := Depot.load_lends (h.grows hl) k₁.worker.reportLosses t.parcel.envelope
    have hstorage := Worker.load_storage d₁ k₁.worker.reportLosses t.parcel.envelope
    rw [hload] at hlends hstorage
    refine ⟨h.handling, .sending hnum hmax rfl (Nat.succ_le_succ hm), h.envelope, h.file, ?_, ?_, ?_, ?_, hlends⟩
    · intro g hg
      exact (congrArg (·.files.find? g) hstorage).trans (h.content g hg)
    · rw [t.handed_again hl, ← List.append_assoc, ← h.handed]
      rfl
    · rw [t.answers_again hl]
      exact h.answers
    · simpa [moved] using h.settled

theorem Holds.resumes {q : Parcel} {n : UInt32} (h : k.Holds d p retry m more t k₁ d₁)
    (hp : k₁.worker.position = .pausing q n) :
    k.Holds d p retry (m + 1) more t { k₁ with worker := { k₁.worker with position := .due q (n + 1) } } d₁ := by
  have hplace := h.place
  rw [hp] at hplace
  cases hplace with
  | pausing hnum hmax hl hm =>
    -- The number of a send does not wrap, as it stays below another word.
    have hlt := UInt32.lt_iff_toNat_lt.mp hmax
    have hmod := retry.maxAttempts.toNat_lt
    have hsucc : (n + 1).toNat = n.toNat + 1 := by
      rw [UInt32.toNat_add, UInt32.toNat_one]
      omega
    refine ⟨h.handling, .due (by rw [hsucc, hnum]) ?_ hl (Nat.succ_le_succ hm), h.envelope, h.file, h.content,
      h.handed, h.answers, h.settled, h.ledger⟩
    rw [UInt32.le_iff_toNat_le, hsucc]
    exact hlt

theorem Holds.goes (h : k.Holds d p retry m more t k₁ d₁) (hone : 1 ≤ retry.maxAttempts)
    (hn : p.envelope.isEmpty = false) (hg : k₁.Goes d₁ k' d') :
    (∃ t', k.Holds d p retry (m + 1) more t' k' d') ∨ k.Ended d p retry.maxAttempts (m + 1) more k' d' := by
  obtain ⟨s, hh⟩ := h.handling
  have hplace := h.place
  -- Whatever the worker does, it does in one position, and there `At` says how far the parcel is.
  cases hg with
  | begins hp => exact .inl (h.begins hone hp)
  | yields hp ha =>
    rw [hp] at hplace
    cases hplace with
    | due _ _ hl =>
      rw [k₁.worker.returned_cancelled hh]
      exact .inr (h.interrupt hone ha (by simp [hl]) (h.grows hl) rfl)
  | @skips q n out d' hp ha hload hb =>
    rw [hp] at hplace
    cases hplace with
    | due =>
      -- There is something to send.
      have hout : out = (d₁.load k₁.worker.reportLosses t.parcel.envelope).1 := by rw [hload]
      have he := (Depot.load_blank (hout ▸ hb)).1
      rw [h.envelope, hn] at he
      cases he
  | hands hp ha hload => exact .inl ⟨_, h.hands hp hload⟩
  | answered r hp ha =>
    rw [hp] at hplace
    cases hplace with
    | sending => exact h.answer hone hp r
  | breaksOff hp ha =>
    rw [hp] at hplace
    cases hplace with
    | sending _ _ hl =>
      obtain ⟨-, -, -, -, hback⟩ := h.sending hp
      rw [k₁.worker.returned_cancelled hh]
      exact .inr (h.interrupt hone ha (by simp [hl]) (hback _) (Worker.failed_storage ..))
  | resumes hp => exact .inl ⟨_, h.resumes hp⟩
  | wakes hp ha =>
    rw [hp] at hplace
    cases hplace with
    | pausing _ _ hl => exact .inr (h.interrupt hone ha (by simp [hl]) (h.grows hl) rfl)

theorem inHand_isSome {o : Occurrence} (ha : k₁.InHand d₁ o) : k₁.worker.hand?.isSome = true := by
  cases o with
  | here a => exact ha
  | elsewhere =>
    obtain ⟨q, hq, -⟩ := ha
    rw [hq]
    rfl

theorem Meanwhile.holds (hm : k.Meanwhile InHand d m more k' d') {s : SpillDir} (hp : k.worker.position = .taken p)
    (hh : k.worker.handling = .durable s retry) (hn : p.envelope.isEmpty = false) (hone : 1 ≤ retry.maxAttempts) :
    (∃ t, k.Holds d p retry m more t k' d') ∨ k.Ended d p retry.maxAttempts m more k' d' := by
  induction hm with
  | refl => exact .inl ⟨_, holds_taken hp hh⟩
  | next o _ ha hr ho ih =>
    -- Nothing is allowed once it has ended, so it had not.
    have hin := inHand_isSome ha
    rcases ih with ⟨t, h⟩ | ⟨t, x, -, hnone, -⟩
    · cases hown : o.isOwn with
      | false => exact .inl ⟨t, h.occurs ha hown hr ho⟩
      | true =>
        have hadd := hr.own hown
        simp only [hadd, UInt64.add_zero]
        exact h.goes hone hn (occurs?_goes hin hown ho)
    · rw [hnone] at hin
      cases hin

/-! ## The file of a new envelope -/

/-- A parcel with its file chosen stays in hand as it is until it is settled. -/
inductive Keeps (k : Desk) (q : Parcel) (k' : Desk) : Prop
  | hand (hq : k'.worker.hand? = some q) (hn : ∀ r, k'.worker.position ≠ .taken r) (hs : k'.settled = k.settled)
  | settled {f} (hq : k'.worker.hand? = none) (hs : k'.settled = k.settled ++ [(q, f)])

theorem Keeps.conclude {q : Parcel} {w : Worker} (hs : k₁.settled = k.settled) (back : Depot) (f : Fate) :
    k.Keeps q (k₁.moved (w.conclude back q f)) :=
  .settled (f := f) rfl (by simp [moved, Worker.conclude, hs])

theorem Keeps.returned {q : Parcel} {n : UInt32} (hs : k₁.settled = k.settled) (back : Depot)
    (r : Except SendError Unit) : k.Keeps q (k₁.moved (k₁.worker.returned back q n r)) := by
  cases r with
  | ok u => exact .conclude hs back .delivered
  | error e =>
    simp only [Worker.returned, Worker.failed]
    split
    · exact .conclude hs back _
    · exact .hand rfl (fun r h => by cases h) (by simp [moved, hs])

theorem Keeps.goes {q : Parcel} (hq : k₁.worker.hand? = some q) (hn : ∀ r, k₁.worker.position ≠ .taken r)
    (hs : k₁.settled = k.settled) (hg : k₁.Goes d₁ k' d') : k.Keeps q k' := by
  have hand {r : Parcel} (h : k₁.worker.hand? = some r) : r = q := Option.some.inj (h.symm.trans hq)
  cases hg with
  | begins hp => exact absurd hp (hn _)
  | @yields r n hp =>
    obtain rfl : r = q := hand (by simp [Worker.hand?, hp])
    exact .returned hs d₁ _
  | @skips r n out d' hp =>
    obtain rfl : r = q := hand (by simp [Worker.hand?, hp])
    exact .returned hs d' _
  | @hands r n out d' hp =>
    obtain rfl : r = q := hand (by simp [Worker.hand?, hp])
    exact .hand rfl (fun r h => by cases h) (by simp [moved, hs])
  | @answered r n out x hp =>
    obtain rfl : r = q := hand (by simp [Worker.hand?, hp])
    cases Keeps.returned (n := n) hs (d₁.after out x) x with
    | hand hq' hn' hs' => exact .hand hq' hn' hs'
    | settled hq' hs' => exact .settled hq' hs'
  | @breaksOff r n out hp =>
    obtain rfl : r = q := hand (by simp [Worker.hand?, hp])
    exact .returned hs _ _
  | @resumes r n hp =>
    obtain rfl : r = q := hand (by simp [Worker.hand?, hp])
    exact .hand rfl (fun r h => by cases h) hs
  | @wakes r n hp =>
    obtain rfl : r = q := hand (by simp [Worker.hand?, hp])
    exact .conclude hs d₁ _

theorem Meanwhile.keeps {q : Parcel} (hm : k.Meanwhile InHand d m more k' d') (hq : k.worker.hand? = some q)
    (hn : ∀ r, k.worker.position ≠ .taken r) : k.Keeps q k' := by
  induction hm with
  | refl => exact .hand hq hn rfl
  | next o _ ha hr ho ih =>
    have hin := inHand_isSome ha
    cases ih with
    | settled hnone => simp [hnone] at hin
    | hand hq' hn' hs' =>
      cases hown : o.isOwn with
      | true => exact .goes hq' hn' hs' (occurs?_goes hin hown ho)
      | false =>
        have hstill := still_occurs hown hr ho
        refine .hand ?_ (fun r => by rw [hstill.position]; exact hn' r) (hstill.settled.trans hs')
        rw [← hq', Worker.hand?, Worker.hand?, hstill.position]

/-- If the parcel had no file, it has the one that the worker put it into on the way, and none if it could not. -/
def Filed (k : Desk) (d : Depot) (p : Parcel) (t : Tries) (k' : Desk) (d' : Depot) : Prop :=
  ∀ m more k₁ d₁ k₂ d₂ m' more', k.Meanwhile InHand d m more k₁ d₁ → k₁.worker.position = .taken p →
    k₁.act? d₁ .step = some (k₂, d₂) → k₂.Meanwhile InHand d₂ m' more' k' d' → p.file = none →
    t.parcel.file = (k₁.worker.spill d₁ p.envelope).1.file? ∧ d₂ = (k₁.worker.spill d₁ p.envelope).2.2

theorem filed {s : SpillDir} (hp : k.worker.position = .taken p) (hh : k.worker.handling = .durable s retry)
    (hn : p.envelope.isEmpty = false) (hone : 1 ≤ retry.maxAttempts)
    (ht : k'.worker.hand? = some t.parcel ∨
      k'.worker.hand? = none ∧ ∃ f, k'.settled = k.settled ++ [(t.parcel, f)]) : k.Filed d p t k' d' := by
  intro m₁ more₁ k₁ d₁ k₂ d₂ m₂ more₂ hbefore htaken hstep hafter hnew
  -- it is in hand until it is put into a file, so that nothing else was settled
  have hset : k₁.settled = k.settled := by
    rcases hbefore.holds hp hh hn hone with ⟨t₁, h⟩ | ⟨t₁, x, -, hnone, -⟩
    · exact h.settled
    · simp [Worker.hand?, htaken] at hnone
  have hbegin : k₁.worker.begin d₁ p = ⟨{ (k₁.worker.spill d₁ p.envelope).2.1 with
      position := .due { p with file := (k₁.worker.spill d₁ p.envelope).1.file? } 1 },
      (k₁.worker.spill d₁ p.envelope).2.2, none⟩ := by
    simp only [Worker.begin, hnew]
  rw [act?, Worker.step?, htaken] at hstep
  simp only [Option.map_some, hbegin, Option.some.injEq, Prod.mk.injEq] at hstep
  obtain ⟨rfl, rfl⟩ := hstep
  refine ⟨?_, rfl⟩
  suffices t.parcel = { p with file := (k₁.worker.spill d₁ p.envelope).1.file? } by rw [this]
  have hkeeps := hafter.keeps (q := { p with file := (k₁.worker.spill d₁ p.envelope).1.file? }) rfl (fun r h => by cases h)
  cases hkeeps with
  | hand hq =>
    rcases ht with ht | ⟨ht, -⟩
    · exact Option.some.inj (ht.symm.trans hq)
    · cases ht.symm.trans hq
  | @settled f' hq hs =>
    rcases ht with ht | ⟨-, f, hf⟩
    · cases ht.symm.trans hq
    · have hs' : k'.settled = k.settled ++ [({ p with file := (k₁.worker.spill d₁ p.envelope).1.file? }, f')] := by
        simpa [moved, hset] using hs
      have hlast := List.append_cancel_left (hf.symm.trans hs')
      exact congrArg Prod.fst (List.singleton_inj.mp hlast)

/-- A worker that keeps envelopes in files has taken one that has items in it. Whatever the transport answers, and
whenever the worker is told to give up: it sends the envelope so often at most as it may, and again only after a
transient failure; the file of a new envelope is the one that it was put into; the worker can always go on and need
not do so for ever; and once the envelope is not in hand any more, it has ended in one way, and in one only. -/
theorem handled_once {s : SpillDir} (hp : k.worker.position = .taken p) (hh : k.worker.handling = .durable s retry)
    (hn : p.envelope.isEmpty = false) (hone : 1 ≤ retry.maxAttempts) (hm : k.Meanwhile InHand d m more k' d') :
    ∃ t : Tries, k.Tried p retry.maxAttempts m t k' ∧ k.Filed d p t k' d' ∧
      (∀ i out, t.sends[i]? = some out → i + 1 < t.sends.length →
        ∃ e, t.answers[i]? = some (t.parcel, out, .error (.transient e))) ∧
      (k'.worker.hand?.isSome = true → k'.Open d') ∧
      (k'.worker.hand? = none → ∃! x, k.EndsAs d p retry.maxAttempts more t k' d' x) := by
  rcases hm.holds hp hh hn hone with ⟨t, h⟩ | ⟨t, x, htried, hnone, hx⟩
  · refine ⟨t, h.tried hone, filed hp hh hn hone (.inl h.hand), fun i out => t.repeated, open_of_hand d',
      fun hnone => ?_⟩
    cases h.hand.symm.trans hnone
  · obtain ⟨f, hf, -⟩ := hx.settled
    refine ⟨t, htried, filed hp hh hn hone (.inr ⟨hnone, f, hf⟩), fun i out => t.repeated, fun hs => ?_,
      fun _ => ⟨x, hx, fun y hy => hy.unique hx⟩⟩
    rw [hnone] at hs
    cases hs

def stubborn : Parcel := ⟨.ofEvent "a" (.str ""), none, true⟩

/-- An envelope was taken, and there is room for its file. -/
def stubbornDesk : Desk where
  worker := { Worker.ofSettings .standard (.durable ⟨{ dir := ⟨"cache"⟩ }, true, 30, 0⟩ .standard) with
    position := .taken stubborn, queued := 1, accepted := 1 }

def stubbornDepot : Depot := { storage := { files := { dirs := [⟨"cache"⟩] } } }

def stubbornBegin : Stride := stubbornDesk.worker.begin stubbornDepot stubborn

/-- It gets a file and is sent twice; what others lose before the second time rides along. -/
theorem handled_once_stubbornDesk :
    ∃ m more k' d', stubbornDesk.Meanwhile InHand stubbornDepot m more k' d' ∧ k'.worker.hand? = none ∧
      k'.handed.map (·.2.carries ⟨.sampleRate, .error⟩) = [0, 3] ∧ d'.storage.files.files = [] ∧
      ∃ t : Tries, stubbornDesk.Tried stubborn 3 m t k' ∧ stubbornDesk.Filed stubbornDepot stubborn t k' d' ∧
        t.parcel.file = some ⟨"cache/0000000000000-000000.envelope"⟩ ∧
        (∀ i out, t.sends[i]? = some out → i + 1 < t.sends.length →
          ∃ e, t.answers[i]? = some (t.parcel, out, .error (.transient e))) ∧
        ∃! x, stubbornDesk.EndsAs stubbornDepot stubborn 3 more t k' d' x := by
  have hbegin : stubbornDesk.act? stubbornDepot .step = some (stubbornDesk.moved stubbornBegin, stubbornBegin.depot) :=
    rfl
  have rest {k : Desk} {d : Depot} {m : Nat} {more : Loss → UInt64}
      (hbegun : k.Meanwhile InHand d m more (stubbornDesk.moved stubbornBegin) stubbornBegin.depot) :=
    have hsent := hbegun.next (.here (.act .step)) rfl (.here _) rfl
    have hfailed := hsent.next (.here (.act (.answer (.error (.transient ""))))) rfl (.here _) rfl
    have hlost := hfailed.next (.elsewhere (·.recordAll [(⟨.sampleRate, .error⟩, 3)]) ⟨.zero⟩ id id)
      ⟨_, rfl, fun g hg => rfl⟩ (.elsewhere _ rfl) rfl
    have hresumed := hlost.next (.here (.act .resume)) rfl (.here _) rfl
    have hagain := hresumed.next (.here (.act .step)) rfl (.here _) rfl
    hagain.next (.here (.act (.answer (.ok ())))) rfl (.here _) rfl
  have hbegun : stubbornDesk.Meanwhile InHand stubbornDepot _ _ (stubbornDesk.moved stubbornBegin)
      stubbornBegin.depot := .next (.here (.act .step)) .refl rfl (.here _) hbegin
  have hdone := rest hbegun
  obtain ⟨t, htried, hfiled, hagain, -, hends⟩ := handled_once rfl rfl rfl (by decide) hdone
  have hname : (stubbornDesk.worker.spill stubbornDepot stubborn.envelope).1.file? =
      some ⟨"cache/0000000000000-000000.envelope"⟩ := by decide +kernel
  have hfile := (hfiled _ _ _ _ _ _ _ _ .refl rfl hbegin (rest .refl) rfl).1
  exact ⟨_, _, _, _, hdone, rfl, by decide +kernel, by decide +kernel, t, htried, hfiled, hfile.trans hname, hagain,
    hends rfl⟩

end Desk

end Courier

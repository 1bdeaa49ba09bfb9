import Courier.Proofs.Succession

/-!
# What went before

Nobody looks at the record of a desk: what happened before may be put in front of it, and all goes on as it did.
-/

namespace Courier

/-- The desk with what went over another one in front. -/
def Desk.since (k before : Desk) : Desk :=
  { k with
    accepted := before.accepted ++ k.accepted
    refused := before.refused ++ k.refused
    handed := before.handed ++ k.handed
    answers := before.answers ++ k.answers
    settled := before.settled ++ k.settled }

namespace Desk

variable (k before : Desk)

@[simp] theorem since_worker : (k.since before).worker = k.worker := rfl

@[simp] theorem since_waits : (k.since before).waits = k.waits := rfl

theorem since_since (first : Desk) : (k.since before).since first = k.since (before.since first) := by
  simp [since]

theorem moved_since (x : Stride) : (k.since before).moved x = (k.moved x).since before := by
  simp [moved, since]

theorem offered_since (d : Depot) (e : Envelope) (reason? : Option LossReason) :
    (k.since before).offered d e reason? =
      ((k.offered d e reason?).1.since before, (k.offered d e reason?).2) := by
  simp only [offered, since_worker]
  rcases k.worker.enqueue d e with ⟨r, w, d'⟩
  rcases r with _ | _ | _ <;> simp [since]

theorem act?_since (d : Depot) (a : Act) :
    (k.since before).act? d a = (k.act? d a).map fun x => (x.1.since before, x.2) := by
  cases a with
  | step => simp [act?, moved_since, Function.comp_def]
  | answer r =>
    simp only [act?, since_worker, moved_since]
    split
    · split
      · rfl
      · simp [since]
    · rfl
  | resume =>
    by_cases hp : (k.worker.isPausing && !k.worker.aborted) = true
    · rw [show k.act? d .resume = some ({ k with worker := k.worker.resumed }, d) from if_pos hp]
      exact if_pos hp
    · rw [show k.act? d .resume = none from if_neg hp]
      exact if_neg hp
  | offer e reason? => simp [act?, offered_since]
  | call e => rfl
  | look n now =>
    simp only [act?, since_worker, since_waits, Option.map_map]
    rfl

end Desk

namespace Office

/-- The office with what went over another desk in front of the record of its first one. -/
def since (s : Office) (before : Desk) : Office := { s with desks := s.desks.modifyHead (·.since before) }

variable {s t : Office} {steady : Prop} {fine : Envelope → Prop} {dir : String}

theorem since_since (s : Office) (before first : Desk) :
    (s.since before).since first = s.since (before.since first) := by
  cases hd : s.desks <;> simp [since, hd, Desk.since_since]

theorem after?_since {e : Event} (hd : s.desks ≠ []) (h : s.after? e = some t) (before : Desk) :
    (s.since before).after? e = some (t.since before) ∧ t.desks ≠ [] := by
  obtain ⟨k, ks, hk⟩ := List.exists_cons_of_ne_nil hd
  cases e with
  | desk i a =>
    obtain ⟨b, b', hb, ha, ht, hn⟩ := after?_act h
    refine ⟨?_, by simp [ht, hk]⟩
    obtain ⟨depot, desks, names⟩ := t
    obtain rfl : desks = s.desks.set i b' := ht
    obtain rfl : names = s.names + (b'.worker.sequence - b.worker.sequence).toNat := hn
    rw [hk] at hb
    cases i with
    | zero =>
      cases hb
      simp [after?, since, hk, Desk.act?_since, ha]
    | succ i =>
      have hb' : ks[i]? = some b := by simpa using hb
      simp [after?, since, hk, hb', ha]
  | clock n => cases h; exact ⟨rfl, hd⟩
  | failWrites on => cases h; exact ⟨rfl, hd⟩
  | start durable settings =>
    cases h
    have hr : (s.since before).depot = s.depot := rfl
    simp only [after?, started, hr]
    rcases (if durable then Worker.startDurable settings s.depot.storage
      else (Worker.start settings, s.depot.storage)) with ⟨e | w, storage⟩ <;> simp [since, hk]

theorem InTurn.since {e : Event} (h : InTurn steady fine dir s e) (before : Desk) :
    InTurn steady fine dir (s.since before) e := by
  cases e with
  | desk i a => cases a <;> exact h
  | clock n => exact h
  | failWrites on => trivial
  | start durable settings =>
    refine ⟨h.1, h.2.1, ?_⟩
    have hstop := h.2.2
    cases hd : s.desks with
    | nil => simp [Office.since, hd]
    | cons k ks =>
      rw [hd] at hstop
      simpa [Office.since, hd, Desk.since] using hstop

/-- What follows does not depend on what went before. -/
theorem Reach.since (hr : Reach (InTurn steady fine dir) s t) (hd : s.desks ≠ []) (before : Desk) :
    Reach (InTurn steady fine dir) (s.since before) (t.since before) ∧ t.desks ≠ [] := by
  induction hr with
  | refl => exact ⟨.refl, hd⟩
  | next e _ ha ht ih =>
    obtain ⟨ht', hd'⟩ := after?_since ih.2 ht before
    exact ⟨.next e ih.1 (ha.since before) ht', hd'⟩

end Office

end Courier

import Courier.Proofs.Meanwhile

/-!
# Counts on loan

A send takes the counts of losses out of the ledger before anybody knows how it ends. Until then they are on loan. A
send that fails, in whatever way, gives all of them back, and gives them back once; after one that did not fail they
are where the report is that rode along. To put a report into an envelope never fails: it is names and numbers.
-/

namespace Courier

namespace Desk

/-- A send, from the step that begins it to what ends it, and what others record on the way. -/
inductive Sent (k : Desk) (d : Depot) : (Loss → UInt64) → Desk → Depot → Prop
  | atOnce {k' d'} (hs : k.act? d .step = some (k', d')) (hn : k'.worker.sending? = none) :
    Sent k d (fun _ => 0) k' d'
  | later {k₁ d₁ more k₂ d₂ k' d'} (o : Occurrence) (hs : k.act? d .step = some (k₁, d₁))
    (hh : k₁.worker.sending?.isSome = true) (hm : k₁.Meanwhile (fun _ _ _ => True) d₁ 0 more k₂ d₂)
    (hown : o.isOwn = true) (ho : k₂.occurs? d₂ o = some (k', d')) : Sent k d more k' d'

/-- What a send came to: what was handed to the transport, what the worker is told, and the depot when it is told so.
From there on the worker deals with the parcel, which is as it was. -/
structure Outcome (k : Desk) (d : Depot) (p : Parcel) (n : UInt32) (more : Loss → UInt64) (k' : Desk) (d' : Depot)
    (out? : Option Outbound) (told : Except SendError Unit) (back : Depot) : Prop where
  goesOn : ∃ w : Worker, w.handling = k.worker.handling ∧ k'.worker = (w.returned back p n told).worker ∧
    d' = (w.returned back p n told).depot ∧ k'.settled = k.settled ++ (w.returned back p n told).settled.toList
  handed : k'.handed = k.handed ++ (out?.map fun out => (p, out)).toList
  /-- What is handed over is the envelope and a report of all losses so far, if there are any, and never nothing. -/
  loaded : ∀ out, out? = some out → out.Of p.envelope ∧ out.envelope.isEmpty = false ∧
    ∀ l, out.carries l = if k.worker.reportLosses then d.ledger.gain (d.ledger.pending l) else 0
  /-- The transport has answered, or the worker was told to give up, or there was nothing to send. -/
  why : (∃ out, out? = some out ∧ k'.answers = k.answers ++ [(p, out, told)]) ∨
    k'.answers = k.answers ∧ (told = .error .cancelled ∧ k'.worker.aborted = true ∨
      told = .ok () ∧ out? = none ∧ p.envelope.isEmpty = true)
  /-- After a failure the ledger is as it was, but for what others recorded. -/
  failure : ∀ e, told = .error e → d.ledger.Grows more back.ledger
  /-- Else the counts are in the report and in the ledger, each in one of them. -/
  success : told = .ok () → ∀ l,
    (out?.map fun out => out.carries l).getD 0 + back.ledger.pending l = d.ledger.pending l + d.ledger.gain (more l)

variable {k k' k₁ k₂ : Desk} {d d' d₁ d₂ : Depot} {p : Parcel} {n : UInt32} {more : Loss → UInt64} {out : Outbound}

theorem hand?_of_due (hp : k.worker.position = .due p n) : k.worker.hand?.isSome = true := by
  simp [Worker.hand?, hp]

theorem hand?_of_sending (hp : k.worker.position = .sending p n out) : k.worker.hand?.isSome = true := by
  simp [Worker.hand?, hp]

theorem returned_aborted (w : Worker) (d : Depot) (p : Parcel) (n : UInt32) (r : Except SendError Unit) :
    (w.returned d p n r).worker.aborted = w.aborted := by
  cases r with
  | ok => exact Worker.release_aborted w p
  | error e =>
    simp only [Worker.returned, Worker.failed]
    split
    · exact Worker.release_aborted w p
    · rfl

theorem handed_returned (k : Desk) (w : Worker) (d : Depot) (p : Parcel) (n : UInt32) (r : Except SendError Unit) :
    (k.moved (w.returned d p n r)).handed = k.handed := by
  simp [moved, Worker.sending?_returned]

theorem outcome_atOnce (hp : k.worker.position = .due p n) (hg : k.Goes d k' d') (hn : k'.worker.sending? = none) :
    ∃ told back, k.Outcome d p n (fun _ => 0) k' d' none told back := by
  cases hg with
  | begins hp' => cases hp.symm.trans hp'
  | yields hp' ha =>
    cases hp.symm.trans hp'
    refine ⟨.error .cancelled, d, ⟨_, rfl, rfl, rfl, rfl⟩, ?_, nofun, ?_, fun e he => .refl d.ledger, nofun⟩
    · simp [handed_returned]
    · exact .inr ⟨rfl, .inl ⟨rfl, (returned_aborted ..).trans ha⟩⟩
  | @skips q m out d₁ hp' ha hl hb =>
    cases hp.symm.trans hp'
    have ho : out = (d.load k.worker.reportLosses p.envelope).1 := by rw [hl]
    obtain ⟨he, hz⟩ := Depot.load_blank (ho ▸ hb)
    have htakes := d.load_takes k.worker.reportLosses p.envelope
    refine ⟨.ok (), d₁, ⟨_, rfl, rfl, rfl, rfl⟩, ?_, nofun, .inr ⟨rfl, .inr ⟨rfl, rfl, he⟩⟩, nofun, fun _ l => ?_⟩
    · simp [handed_returned]
    · have hp := (htakes l).2
      rw [hz l, hl] at hp
      simpa using hp
  | hands => simp [moved, Worker.sending?] at hn
  | answered r hp' => cases hp.symm.trans hp'
  | breaksOff hp' => cases hp.symm.trans hp'
  | resumes hp' => cases hp.symm.trans hp'
  | wakes hp' => cases hp.symm.trans hp'

/-- What the transport has before it answers: what was handed to it, while the counts in it are on loan. -/
structure Underway (k : Desk) (d : Depot) (p : Parcel) (n : UInt32) (more : Loss → UInt64) (k' : Desk) (d' : Depot)
    (out : Outbound) : Prop where
  position : k'.worker.position = .sending p n out
  handling : k'.worker.handling = k.worker.handling
  handed : k'.handed = k.handed ++ [(p, out)]
  answers : k'.answers = k.answers
  settled : k'.settled = k.settled
  loaded : out.Of p.envelope ∧ out.envelope.isEmpty = false ∧
    ∀ l, out.carries l = if k.worker.reportLosses then d.ledger.gain (d.ledger.pending l) else 0
  ledger : d.ledger.Lends more out.carries d'.ledger

theorem underway_of_goes (hp : k.worker.position = .due p n) (hg : k.Goes d k' d')
    (hs : k'.worker.sending?.isSome = true) : ∃ out, k.Underway d p n (fun _ => 0) k' d' out := by
  cases hg with
  | begins hp' => cases hp.symm.trans hp'
  | yields => simp [moved, Worker.sending?_returned] at hs
  | skips => simp [moved, Worker.sending?_returned] at hs
  | @hands q m out d' hp' ha hl hn =>
    cases hp.symm.trans hp'
    have hof := d.load_of k.worker.reportLosses p.envelope
    have htakes := d.load_takes k.worker.reportLosses p.envelope
    have hlends := Depot.load_lends (.refl d.ledger) k.worker.reportLosses p.envelope
    rw [hl] at hof htakes hlends
    exact ⟨out, rfl, rfl, rfl, rfl, by simp [moved], ⟨hof, hn, fun l => (htakes l).1⟩, hlends⟩
  | answered r hp' => cases hp.symm.trans hp'
  | breaksOff hp' => cases hp.symm.trans hp'
  | resumes hp' => cases hp.symm.trans hp'
  | wakes hp' => cases hp.symm.trans hp'

theorem Underway.still {more' : Loss → UInt64} (h : k.Underway d p n more k₁ d₁ out) (hs : k₁.Still d₁ more' k₂ d₂) :
    k.Underway d p n (fun l => more l + more' l) k₂ d₂ out :=
  ⟨hs.position.trans h.position, hs.handling.trans h.handling, hs.handed.trans h.handed, hs.answers.trans h.answers,
    hs.settled.trans h.settled, h.loaded, h.ledger.grow hs.ledger⟩

theorem Underway.outcome (h : k.Underway d p n more k₁ d₁ out) (hg : k₁.Goes d₁ k' d') :
    ∃ told back, k.Outcome d p n more k' d' (some out) told back := by
  have hp := h.position
  -- Whatever the failure is, the loan goes back before anything else is counted.
  have hback (e : SendError) : d.ledger.Grows more (d₁.failed out e).ledger :=
    h.ledger.giveBack (d₁.grows_failed out e)
  cases hg with
  | begins hp' => cases hp.symm.trans hp'
  | yields hp' => cases hp.symm.trans hp'
  | skips hp' => cases hp.symm.trans hp'
  | hands hp' => cases hp.symm.trans hp'
  | answered r hp' ha =>
    cases hp.symm.trans hp'
    refine ⟨r, d₁.after out r, ⟨_, h.handling, rfl, rfl, ?_⟩, ?_, ?_, ?_, ?_, ?_⟩
    · rw [← h.settled]
      rfl
    · exact (handed_returned ..).trans h.handed
    · rintro out' ⟨⟩
      exact h.loaded
    · rw [← h.answers]
      exact .inl ⟨out, rfl, rfl⟩
    · rintro e rfl
      exact hback e
    · rintro rfl l
      rw [UInt64.add_comm]
      exact h.ledger.pending l
  | breaksOff hp' ha =>
    cases hp.symm.trans hp'
    refine ⟨.error .cancelled, d₁.failed out .cancelled, ⟨_, h.handling, rfl, rfl, ?_⟩, ?_, ?_, ?_, ?_, nofun⟩
    · rw [← h.settled]
      rfl
    · exact (handed_returned ..).trans h.handed
    · rintro out' ⟨⟩
      exact h.loaded
    · exact .inr ⟨h.answers, .inl ⟨rfl, (returned_aborted ..).trans ha⟩⟩
    · rintro e ⟨⟩
      exact hback .cancelled
  | resumes hp' => cases hp.symm.trans hp'
  | wakes hp' => cases hp.symm.trans hp'

/-- A send that is under way can end at any time: with any answer, or without one if the worker is to give up. -/
theorem Underway.ends (h : k.Underway d p n more k₁ d₁ out) :
    (k₁.worker.aborted = true → (k₁.act? d₁ .step).isSome = true) ∧
      (k₁.worker.aborted = false → ∀ r, (k₁.act? d₁ (.answer r)).isSome = true) := by
  have hopen := open_of_hand d₁ (hand?_of_sending h.position)
  refine ⟨fun ha => hopen.step (.inl ha), fun ha => hopen.answer ha ?_⟩
  simp [Worker.sending?, h.position]

/-- Whenever the worker is told to give up, whatever the transport answers, and whatever others record meanwhile: a
send that fails leaves the ledger as it was, and one that does not moves its counts into the report, once. -/
theorem Sent.moves_once (hp : k.worker.position = .due p n) (hs : k.Sent d more k' d') :
    ∃ out? told back, k.Outcome d p n more k' d' out? told back := by
  have hh := hand?_of_due hp
  cases hs with
  | atOnce hs hn => exact ⟨none, outcome_atOnce hp (goes_step hh hs) hn⟩
  | later o hs hsent hm hown ho =>
    obtain ⟨out, hu⟩ := underway_of_goes hp (goes_step hh hs) hsent
    have hu := hu.still hm.still
    have hg := occurs?_goes (hand?_of_sending hu.position) hown ho
    obtain ⟨told, back, hout⟩ := hu.outcome hg
    simp only [UInt64.zero_add] at hout
    exact ⟨some out, told, back, hout⟩

def sendDue : Parcel := ⟨.ofEvent "a" (.str ""), none, true⟩

def dueDesk : Desk where
  worker := { Worker.ofSettings .standard .once with position := .due sendDue 1, queued := 1, accepted := 1 }

/-- Something was lost twice before the send begins. -/
def dueDepot : Depot := { ledger := ({} : Ledger).record ⟨.sampleRate, .error⟩ 2 }

/-- It is lost three times more before the send fails. -/
theorem Sent.moves_once_dueDesk :
    ∃ more k' d', dueDesk.Sent dueDepot more k' d' ∧ k'.answers.length = 1 ∧
      d'.ledger.pending ⟨.sampleRate, .error⟩ = 5 ∧
      ∃ out? told back, dueDesk.Outcome dueDepot sendDue 1 more k' d' out? told back := by
  have hs : dueDesk.Sent dueDepot _ _ _ :=
    .later (.here (.act (.answer (.error (.transient ""))))) rfl rfl
      (.next (.elsewhere (·.recordAll [(⟨.sampleRate, .error⟩, 3)]) ⟨.zero⟩ id id) .refl trivial (.elsewhere _ rfl) rfl)
      rfl rfl
  exact ⟨_, _, _, hs, rfl, by decide +kernel, hs.moves_once rfl⟩

end Desk

end Courier

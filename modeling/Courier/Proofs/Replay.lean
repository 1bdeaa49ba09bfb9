import Courier.Proofs.AtMostOnce
import Courier.Proofs.Succession
import Courier.Proofs.Told

/-!
# Replay

A worker settles what it found and then what it accepted, one after another. What the last worker has left is what
the next one finds: no more and no less, in the order in which it was accepted.
-/

namespace Courier

/-- Neither delivered nor counted as lost. -/
def Fate.isOpen (f : Fate) : Bool := f != .delivered && f.lossReason?.isNone

theorem Fate.isOpen_eq (f : Fate) : f.isOpen = f.file?.isSome := by cases f <;> rfl

/-- What a worker leaves of the envelopes that earlier ones left and of those that it accepted: one after another,
it has settled all of them. -/
def Desk.left (k : Desk) (earlier : List Envelope) : List Envelope :=
  (((earlier ++ k.accepted).zip (k.settled.filter (·.1.filled))).filter (·.2.2.isOpen)).map Prod.fst

theorem Desk.left_sublist (k : Desk) (earlier : List Envelope) : (k.left earlier).Sublist (earlier ++ k.accepted) := by
  refine (List.filter_sublist.map _).trans ?_
  generalize earlier ++ k.accepted = es
  generalize k.settled.filter (·.1.filled) = ps
  induction es generalizing ps with
  | nil => exact .slnil
  | cons e es ih =>
    cases ps with
    | nil => exact List.nil_sublist _
    | cons p ps => exact (ih ps).cons_cons e

theorem placesDone_fst (done : Done) : (placesDone done).map Prod.fst = (done.filter (·.2.2.isOpen)).map Prod.fst := by
  induction done with
  | nil => rfl
  | cons x done ih =>
    rw [placesDone] at ih
    rw [placesDone, List.filterMap_cons, List.filter_cons, Fate.isOpen_eq]
    cases hf : x.2.2.file? with
    | none => simpa using ih
    | some g => simpa using ih

theorem Past.left {fine : Envelope → Prop} {ks : List Desk} {found : List Envelope} (h : Past True fine ks found) :
    ks.foldl (fun earlier k => k.left earlier) [] = found := by
  induction h with
  | nil => rfl
  | @snoc old k earlier found done _ hset hsrc _ _ _ ho ih =>
    rw [List.foldl_append, ih, List.foldl_cons, List.foldl_nil, ho trivial, placesDone_fst, Desk.left, hset, hsrc,
      List.zip_map']
    simp

namespace Office

/-- The envelopes that were accepted and that no worker has delivered or counted as lost. -/
def unresolved (s : Office) : List Envelope := s.desks.foldl (fun earlier k => k.left earlier) []

theorem unresolved_sublist (s : Office) : s.unresolved.Sublist s.accepted := by
  suffices ∀ (ks : List Desk) (earlier : List Envelope),
      (ks.foldl (fun earlier k => k.left earlier) earlier).Sublist (earlier ++ ks.flatMap (·.accepted))
    from this s.desks []
  intro ks
  induction ks with
  | nil => simp
  | cons k ks ih =>
    intro earlier
    rw [List.foldl_cons, List.flatMap_cons, ← List.append_assoc]
    exact (ih _).trans ((k.left_sublist earlier).append_right _)

variable {first s : Office} {dir : String}

/-- Workers on one directory, empty at first, come one after another, and all of them have stopped: each has settled
all it found and all it accepted, in this order. Delivered is what the transport said has arrived, and what is lost
is pending or was reported. What the next worker finds are the envelopes that were accepted and neither delivered nor
counted as lost, in the order in which they were accepted, each as its wire form is read. -/
theorem started_backlog {settings : Settings} (hv : first.Vacant ⟨dir⟩)
    (hearly : first.depot.clock.now.millis.toNat < 10 ^ 13) (hr : Reach (InTurn True Envelope.Plain dir) first s)
    (hstop : ∀ k ∈ s.desks, k.worker.phase = .stopped) (hnames : s.names < 10 ^ 6)
    (hs : settings.validate = .ok ()) (hd : settings.cacheDir = some dir) :
    (∀ k ∈ s.desks, ((k.settled.map Prod.fst).filter Parcel.filled).map (·.envelope) =
        k.backlog.map Prod.fst ++ k.accepted ∧
      (k.settled.filter fun x => x.2 = .delivered ∧ x.1.filled).map Prod.fst =
        (k.answers.filter fun a => a.2.2.isOk ∧ a.1.filled).map Prod.fst) ∧
    (first.depot.ledger.enabled = true → ∀ l,
      s.depot.ledger.pending l + s.attachedLoss l = first.depot.ledger.pending l + s.lost l) ∧
    s.unresolved.Sublist s.accepted ∧
    ∃ w, (s.started true settings).desks = s.desks ++ [.opened w] ∧
      (Desk.opened w).backlog.map Prod.fst = s.unresolved.map Envelope.wireForm := by
  have hserial := hr.serial (fun _ he => he.legible) hv (fun _ => hearly) hnames
  have hsends := hr.sends (by simp [hv.desks])
  refine ⟨fun k hk => ⟨?_, (hsends k hk).delivered⟩, fun he l => ?_, s.unresolved_sublist, ?_⟩
  · have ho := (hsends k hk).order.filled
    rwa [Desk.parcels, (hserial.locked.sound k hk).parcels (hstop k hk), List.append_nil] at ho
  · have hb := (hr.balance he l).2
    have ho := owed_idle hsends (fun k hk => (hserial.locked.sound k hk).sending? (hstop k hk)) l
    have hnone : first.owed l = 0 := by simp [owed, hv.desks]
    grind
  · have hl := hserial.free fun k hk => hserial.freed k hk (hstop k hk)
    obtain ⟨w, fs, hw⟩ := Worker.startDurable_owner hs hd hserial.locked.allowed hl
    obtain ⟨q, xs, hrest⟩ := hserial.resting hstop
    obtain ⟨ys, hy, hpast, hplain, -⟩ :=
      hrest.takes (fun _ he => he.legible) hnames hd hl (Worker.startDurable_started hw)
    refine ⟨w, by simp [started, hw], ?_⟩
    rw [hy.backlog, unresolved, hpast.left, List.map_map, List.map_map]
    exact List.map_congr_left fun y hm => (hplain y hm).2.reread

/-! ## A run -/

/-- The first worker delivers one of four envelopes, loses the next one and gives up; the second one delivers what
stands first in the files, with a report, and leaves the other one and an envelope of its own. -/
def replayRun : List Event :=
  let step i := Event.desk i .step
  let offer i n := Event.desk i (.offer (tagged n) none)
  [.start true sharing, offer 0 1, offer 0 2, offer 0 3, offer 0 4, step 0, step 0, step 0,
    .desk 0 (.answer (.ok ())), step 0, step 0, step 0, .desk 0 (.answer (.error (.rejected 400 "bad"))), step 0,
    step 0, .desk 0 (.call .shutdown), .desk 0 (.look 0 0), step 0, step 0, step 0, step 0, .clock ⟨5⟩,
    .start true sharing, offer 1 5, step 1, step 1, step 1, .desk 1 (.answer (.ok ())), .desk 1 (.call .shutdown),
    .desk 1 (.look 0 0), step 1, step 1, step 1, step 1]

theorem started_backlog_replayRun :
    ∃ s : Office, run? (InTurn True Envelope.Plain "cache") { depot := {} } replayRun = some s ∧
      s.unresolved.map (·.tag? "tag") = [some 4, some 5] ∧ s.lost ⟨.sendError, .error⟩ = 1 ∧
      (∀ k ∈ s.desks, ((k.settled.map Prod.fst).filter Parcel.filled).map (·.envelope) =
          k.backlog.map Prod.fst ++ k.accepted ∧
        (k.settled.filter fun x => x.2 = .delivered ∧ x.1.filled).map Prod.fst =
          (k.answers.filter fun a => a.2.2.isOk ∧ a.1.filled).map Prod.fst) ∧
      (({} : Depot).ledger.enabled = true → ∀ l,
        s.depot.ledger.pending l + s.attachedLoss l = ({} : Depot).ledger.pending l + s.lost l) ∧
      s.unresolved.Sublist s.accepted ∧
      ∃ w, (s.started true sharing).desks = s.desks ++ [.opened w] ∧
        (Desk.opened w).backlog.map Prod.fst = s.unresolved.map Envelope.wireForm := by
  have hrun : (run? (InTurn True Envelope.Plain "cache") { depot := {} } replayRun).map (fun s =>
      decide ((∀ k ∈ s.desks, k.worker.phase = .stopped) ∧ s.names < 10 ^ 6 ∧
        s.unresolved.map (·.tag? "tag") = [some 4, some 5] ∧ s.lost ⟨.sendError, .error⟩ = 1)) = some true := by
    decide +kernel
  obtain ⟨s, hs, hp⟩ := Option.map_eq_some_iff.mp hrun
  obtain ⟨hstop, hnames, htags, hlost⟩ := of_decide_eq_true hp
  have hv : ({ depot := {} } : Office).Vacant ⟨"cache"⟩ := ⟨rfl, ⟨.nil, rfl⟩, rfl, rfl⟩
  exact ⟨s, hs, htags, hlost, started_backlog hv (by decide) (.of_run? hs) hstop hnames (by decide +kernel) rfl⟩

end Office

end Courier

import Courier.Proofs.AtMostOnce
import Courier.Proofs.Since
import Courier.Proofs.Told

/-!
# Conservation

Workers on one directory come one after another. What was offered to them is somewhere when all have stopped: it
has arrived, it is counted as lost, by the ledger or in a report that has arrived, or it stands in the files.
-/

namespace Courier

open Tally (sum_map_add sum_map_sum)

/-! ## Telemetry -/

def telemetryOf (es : List Envelope) : UInt64 := (es.map Envelope.telemetrySum).sum

@[simp] theorem telemetryOf_nil : telemetryOf [] = 0 := rfl

@[simp] theorem telemetryOf_cons (e : Envelope) (es : List Envelope) :
    telemetryOf (e :: es) = e.telemetrySum + telemetryOf es := by
  simp [telemetryOf]

@[simp] theorem telemetryOf_append (es fs : List Envelope) :
    telemetryOf (es ++ fs) = telemetryOf es + telemetryOf fs := by
  simp [telemetryOf]

theorem telemetryOf_perm {es fs : List Envelope} (h : es.Perm fs) : telemetryOf es = telemetryOf fs := by
  induction h with
  | nil => rfl
  | cons e _ ih => simp [ih]
  | swap e f es => simp only [telemetryOf_cons]; grind
  | trans _ _ ih₁ ih₂ => rw [ih₁, ih₂]

theorem telemetryOf_flatMap {α : Type} (f : α → List Envelope) (xs : List α) :
    telemetryOf (xs.flatMap f) = (xs.map fun x => telemetryOf (f x)).sum := by
  induction xs with
  | nil => rfl
  | cons x xs ih => simp [ih]

theorem telemetryOf_congr {α : Type} {f g : α → Envelope} {xs : List α}
    (h : ∀ x ∈ xs, (f x).telemetrySum = (g x).telemetrySum) : telemetryOf (xs.map f) = telemetryOf (xs.map g) := by
  rw [telemetryOf, telemetryOf, List.map_map, List.map_map]
  exact congrArg List.sum (List.map_congr_left h)

namespace Item

variable {i j : Item}

theorem Echo.isTelemetry (h : i.Echo j) : j.isTelemetry = i.isTelemetry := by
  have ht := (h.header "type").1
  rw [sentHeader_get? i (by decide)] at ht
  rw [Item.isTelemetry, Item.isTelemetry, kind, kind, ht]

theorem Echo.count (h : i.Echo j) : j.count = i.count := by
  have hc := (h.header "item_count").2
  rw [sentHeader_get? i (by decide)] at hc
  rw [Item.count, Item.count, hc]

end Item

namespace Envelope

variable {e f : Envelope}

theorem telemetrySum_of_empty (h : e.isEmpty = true) : e.telemetrySum = 0 := by
  rw [isEmpty, List.isEmpty_iff] at h
  simp [telemetrySum, telemetry, h]

/-- What is read back counts as the same, item by item. -/
theorem Echo.counts (h : e.Echo f) : f.telemetry.map Item.count = e.telemetry.map Item.count := by
  rw [telemetry, telemetry]
  have hi := h.items
  generalize e.items = is at hi ⊢
  generalize f.items = js at hi ⊢
  induction hi with
  | nil => rfl
  | @cons i j is js hij _ ih =>
    rw [List.filter_cons, List.filter_cons, hij.isTelemetry]
    split
    · rw [List.map_cons, List.map_cons, hij.count, ih]
    · exact ih

theorem Echo.telemetryCount (h : e.Echo f) : f.telemetryCount = e.telemetryCount := by
  funext s
  rw [Envelope.telemetryCount, Envelope.telemetryCount, h.counts]

theorem Echo.telemetrySum (h : e.Echo f) : f.telemetrySum = e.telemetrySum := by
  rw [Envelope.telemetrySum, Envelope.telemetrySum, h.counts]

theorem withReport_telemetrySum (e : Envelope) (report? : Option LossReport) :
    (e.withReport report?).telemetrySum = e.telemetrySum := by
  cases report? with
  | none => rfl
  | some r =>
    have hr : (reportItem r).isTelemetry = false := rfl
    simp [withReport, attach, push, telemetrySum, telemetry, hr]

theorem Reads.telemetrySum (h : e.Reads f) (he : e.Sized) : f.telemetrySum = e.telemetrySum := by
  rcases h with rfl | h
  · rfl
  · exact (ofBytes_toBytes_echo he h).telemetrySum

end Envelope

theorem telemetryOf_filled (ps : List Parcel) :
    telemetryOf ((ps.filter Parcel.filled).map (·.envelope)) = telemetryOf (ps.map (·.envelope)) := by
  induction ps with
  | nil => rfl
  | cons p ps ih =>
    rw [List.filter_cons]
    split
    · simp [ih]
    · next h =>
      have he : p.envelope.telemetrySum = 0 := Envelope.telemetrySum_of_empty (by simpa [Parcel.filled] using h)
      simp [ih, he]

/-! ## What became of it -/

def lostTelemetry (xs : List (Parcel × Fate)) : UInt64 :=
  telemetryOf ((xs.filter (·.2.lossReason?.isSome)).map (·.1.envelope))

theorem lostTelemetry_cons (x : Parcel × Fate) (xs : List (Parcel × Fate)) :
    lostTelemetry (x :: xs) =
      (if x.2.lossReason?.isSome then x.1.envelope.telemetrySum else 0) + lostTelemetry xs := by
  rw [lostTelemetry, List.filter_cons]
  split <;> simp [lostTelemetry]

theorem lostTelemetry_filled (xs : List (Parcel × Fate)) :
    lostTelemetry (xs.filter (·.1.filled)) = lostTelemetry xs := by
  induction xs with
  | nil => rfl
  | cons x xs ih =>
    rw [List.filter_cons]
    split
    · simp [lostTelemetry_cons, ih]
    · next h =>
      have he : x.1.envelope.telemetrySum = 0 := Envelope.telemetrySum_of_empty (by simpa [Parcel.filled] using h)
      simp [lostTelemetry_cons, ih, he]

theorem sum_settledLoss (xs : List (Parcel × Fate)) : (Loss.all.map (settledLoss xs)).sum = lostTelemetry xs := by
  rw [show settledLoss xs = fun l => (xs.map fun x => x.1.envelope.lossAs x.2.lossReason? l).sum from rfl, sum_map_sum]
  induction xs with
  | nil => rfl
  | cons x xs ih => rw [List.map_cons, List.sum_cons, ih, lostTelemetry_cons, Envelope.sum_lossAs?]

/-- Every envelope on the sheet has arrived, is counted as lost or stands in a file. -/
theorem telemetryOf_done {done : Done} (hread : ∀ x ∈ done, x.1.Reads x.2.1.envelope) (hs : ∀ x ∈ done, x.1.Sized) :
    telemetryOf (done.map Prod.fst) =
      telemetryOf (((done.map Prod.snd).filter fun x => x.2 = .delivered).map (·.1.envelope)) +
        lostTelemetry (done.map Prod.snd) + telemetryOf ((placesDone done).map Prod.fst) := by
  induction done with
  | nil => rfl
  | cons x done ih =>
    obtain ⟨e, p, f⟩ := x
    have ih := ih (fun x hx => hread x (List.mem_cons_of_mem _ hx)) fun x hx => hs x (List.mem_cons_of_mem _ hx)
    have hc : p.envelope.telemetrySum = e.telemetrySum :=
      (hread (e, p, f) List.mem_cons_self).telemetrySum (hs (e, p, f) List.mem_cons_self)
    rw [placesDone] at ih ⊢
    simp only [List.map_cons, telemetryOf_cons, lostTelemetry_cons, List.filterMap_cons, ih]
    cases f with
    | delivered => simp [Fate.lossReason?, Fate.file?, hc]; grind
    | failed er => simp [Fate.lossReason?, Fate.file?, hc]; grind
    | abandoned reason => simp [Fate.lossReason?, Fate.file?, hc]; grind
    | kept g => simp [Fate.lossReason?, Fate.file?]; grind

/-- What the reports tell that ride along is what has arrived of the losses. -/
theorem Desk.Sends.sum_arrivedLoss {k : Desk} (hk : k.Sends) :
    (Loss.all.map (arrivedLoss k.answers)).sum + reportedOf (k.arrived.map (·.1.envelope)) =
      reportedOf (k.arrived.map (·.2.envelope)) := by
  have hof := hk.arrived
  rw [show arrivedLoss k.answers = fun l => ((k.answers.filter (·.2.2.isOk)).map (·.2.1.carries l)).sum from rfl,
    sum_map_sum]
  unfold Desk.arrived at hof ⊢
  generalize k.answers.filter (fun a => a.2.2.isOk) = as at hof ⊢
  induction as with
  | nil => rfl
  | cons a as ih =>
    rw [List.map_cons] at hof
    obtain ⟨ha, hof⟩ := List.forall_mem_cons.mp hof
    have hr := ha.reported
    have ih := ih hof
    simp only [List.map_cons, List.sum_cons, reportedOf_cons]
    grind

namespace Desk

variable {k : Desk}

theorem Sends.sum_owed (hk : k.Sends) (hs : k.worker.sending? = none) (hc : ∀ x ∈ k.refused, x.2.isSome = true) :
    (Loss.all.map k.owed).sum + (lostTelemetry k.settled + telemetryOf (k.refused.map Prod.fst)) +
        reportedOf (k.arrived.map (·.1.envelope)) =
      reportedOf (k.arrived.map (·.2.envelope)) := by
  have hl : (Loss.all.map k.lost).sum = lostTelemetry k.settled + telemetryOf (k.refused.map Prod.fst) := by
    have hr : (k.refused.map fun x => (Loss.all.map (x.1.lossAs x.2)).sum) = k.refused.map (·.1.telemetrySum) :=
      List.map_congr_left fun x hx => by rw [Envelope.sum_lossAs?, if_pos (hc x hx)]
    rw [show k.lost = fun l => settledLoss k.settled l + (k.refused.map fun x => x.1.lossAs x.2 l).sum from rfl,
      sum_map_add, sum_settledLoss, sum_map_sum, hr, telemetryOf, List.map_map]
    rfl
  rw [← hl, ← sum_map_add, show (fun l => k.owed l + k.lost l) = arrivedLoss k.answers from funext (owed_idle hs),
    hk.sum_arrivedLoss]

theorem Sends.telemetryOf_delivered (hk : k.Sends) :
    telemetryOf (((k.settled.filter (·.1.filled)).filter fun x => x.2 = .delivered).map (·.1.envelope)) =
      telemetryOf (k.arrived.map (·.2.envelope)) := by
  have ha : (k.answers.filter fun a => a.2.2.isOk ∧ a.1.filled).map Prod.fst =
      (k.arrived.map Prod.fst).filter Parcel.filled := by
    rw [Desk.arrived, List.map_map, List.filter_map, List.filter_filter]
    congr 1
    exact List.filter_congr fun a _ => by simp [Bool.and_comm]
  have hd := congrArg (List.map (·.envelope)) (hk.delivered.trans ha)
  rw [List.map_map] at hd
  have hf : (k.settled.filter fun x => x.2 = .delivered ∧ x.1.filled) =
      (k.settled.filter (·.1.filled)).filter fun x => x.2 = .delivered := by
    rw [List.filter_filter]
    exact List.filter_congr fun x _ => by simp
  rw [← hf]
  refine (congrArg telemetryOf hd).trans ((telemetryOf_filled _).trans ?_)
  rw [List.map_map]
  exact telemetryOf_congr fun a hm => by
    rw [hk.arrived a hm, Envelope.withReport_telemetrySum]
    rfl

end Desk

/-- What was accepted has arrived, is counted as lost, or was left. -/
theorem Past.conserved {steady : Prop} {fine : Envelope → Prop} {ks : List Desk} {found : List Envelope}
    (h : Past steady fine ks found) (hfine : ∀ e, fine e → e.Sized) (hk : ∀ k ∈ ks, k.Sends) :
    telemetryOf (ks.flatMap (·.accepted)) =
      telemetryOf (ks.flatMap fun k => k.arrived.map (·.2.envelope)) + (ks.map fun k => lostTelemetry k.settled).sum +
        telemetryOf found := by
  induction h with
  | nil => rfl
  | @snoc old k earlier found done _ hset hsrc hread hf hfound _ ih =>
    obtain ⟨hold, hlast⟩ := List.forall_mem_append.mp hk
    have ih := ih hold
    have hd := telemetryOf_done hread fun x hx => hfine x.1 (hf x hx)
    have ha := (hlast k (List.mem_singleton_self k)).telemetryOf_delivered
    rw [← hsrc, ← hset, ha, lostTelemetry_filled, telemetryOf_append, ← telemetryOf_perm hfound] at hd
    simp only [List.flatMap_append, List.flatMap_cons, List.flatMap_nil, List.append_nil, telemetryOf_append,
      List.map_append, List.map_cons, List.map_nil, List.sum_append, List.sum_cons, List.sum_nil]
    grind

def Storage.telemetry (fs : Storage) (dir : Path) : UInt64 :=
  telemetryOf ((fs.shelf dir).filterMap fun x => (Envelope.ofBytes x.2).toOption)

theorem Filed.telemetry {steady : Prop} {dir : Path} {now : Timestamp} {q : UInt64} {fs : Storage}
    {xs : List (Envelope × Path)} (hf : Filed steady dir now q fs xs) (hx : ∀ x ∈ xs, x.1.Legible) :
    fs.telemetry dir = telemetryOf (xs.map Prod.fst) := by
  have hread : ∀ x ∈ xs, (Envelope.ofBytes (entry x).2).toOption = some x.1.reread := fun x hm => by
    rw [entry, (hx x hm).ofBytes]
    rfl
  rw [Storage.telemetry, telemetryOf_perm (hf.shelf.filterMap _), List.filterMap_map]
  have hm : xs.filterMap ((fun x => (Envelope.ofBytes x.2).toOption) ∘ entry) = xs.map (·.1.reread) := by
    rw [← List.filterMap_eq_map]
    exact List.filterMap_congr hread
  rw [hm]
  exact telemetryOf_congr fun x hm => (hx x hm).echo.telemetrySum

namespace Office

variable {first s : Office} {dir : String}

def offered (s : Office) : UInt64 := telemetryOf (s.desks.flatMap fun k => k.accepted ++ k.refused.map Prod.fst)

theorem sum_owed (hk : ∀ k ∈ s.desks, k.Sends) (hs : ∀ k ∈ s.desks, k.worker.sending? = none)
    (hc : ∀ k ∈ s.desks, ∀ x ∈ k.refused, x.2.isSome = true) :
    (Loss.all.map s.owed).sum + ((s.desks.map fun k => lostTelemetry k.settled).sum +
        telemetryOf (s.desks.flatMap fun k => k.refused.map Prod.fst)) + reportedOf (s.arrived.map (·.1.envelope)) =
      reportedOf (s.arrived.map (·.2.envelope)) := by
  rw [show s.owed = fun l => (s.desks.map fun k => k.owed l).sum from rfl, sum_map_sum, Office.arrived]
  generalize s.desks = ks at hk hs hc ⊢
  induction ks with
  | nil => rfl
  | cons k ks ih =>
    obtain ⟨hk, hks⟩ := List.forall_mem_cons.mp hk
    obtain ⟨hsk, hss⟩ := List.forall_mem_cons.mp hs
    obtain ⟨hck, hcks⟩ := List.forall_mem_cons.mp hc
    have hone := hk.sum_owed hsk hck
    have ih := ih hks hss hcks
    simp only [List.map_cons, List.sum_cons, List.flatMap_cons, List.map_append, telemetryOf_append, reportedOf_append]
    grind

/-- Whatever was offered has arrived, or is counted as lost, in a report inside an envelope that has arrived or in the
ledger, or stands in the files. The reports that were offered with an envelope are not counted as lost. -/
def Conserved (first s : Office) (dir : Path) : Prop :=
  first.depot.ledger.pendingSum + s.offered + reportedOf (s.arrived.map (·.1.envelope)) =
    telemetryOf (s.arrived.map (·.2.envelope)) + reportedOf (s.arrived.map (·.2.envelope)) +
      s.depot.ledger.pendingSum + s.depot.storage.telemetry dir

instance (first s : Office) (dir : Path) : Decidable (Conserved first s dir) := by
  unfold Conserved
  infer_instance

/-- Workers on one directory, empty at first, come one after another, and all of them have stopped. If all that they
were offered can be read back and the names sufficed, nothing is lost that is not counted, where those count what was
refused who offered it. -/
theorem telemetry_conserved (hv : first.Vacant ⟨dir⟩) (he : first.depot.ledger.enabled = true)
    (hr : Reach (InTurn False Envelope.Legible dir) first s) (hstop : ∀ k ∈ s.desks, k.worker.phase = .stopped)
    (hrefused : ∀ k ∈ s.desks, ∀ x ∈ k.refused, x.2.isSome = true) (hnames : s.names < 10 ^ 6) :
    Conserved first s ⟨dir⟩ ∧
      (∀ n, s.depot.ledger.pendingTotal = .ok n → n = s.depot.ledger.pendingSum) ∧
      ∀ k ∈ s.desks, ∀ x ∈ k.arrived, x.2.Of x.1.envelope := by
  have hserial := hr.serial (fun _ he => he) hv nofun hnames
  have hsends := hr.sends (by simp [hv.desks])
  refine ⟨?_, fun n hn => Sums.sum_of_total hn, fun k hk => (hsends k hk).arrived⟩
  obtain ⟨q, xs, hrest⟩ := hserial.resting hstop
  have hidle : ∀ k ∈ s.desks, k.worker.sending? = none := fun k hk =>
    (hserial.locked.sound k hk).sending? (hstop k hk)
  have hbalance : (Loss.all.map s.depot.ledger.pending).sum + (Loss.all.map s.owed).sum =
      (Loss.all.map first.depot.ledger.pending).sum := by
    rw [← sum_map_add, show (fun l => s.depot.ledger.pending l + s.owed l) = first.depot.ledger.pending from
      funext fun l => ?_]
    rw [(hr.balance he l).2]
    simp [owed, hv.desks]
  rw [Ledger.sum_pending, Ledger.sum_pending] at hbalance
  have howed := sum_owed hsends hidle hrefused
  have hpast := hrest.past.conserved (fun e he => he.sized) hsends
  rw [Conserved, hrest.filed.telemetry fun x hx => (hrest.fine x hx).2, offered]
  have harrived : telemetryOf (s.desks.flatMap fun k => k.arrived.map (·.2.envelope)) =
      telemetryOf (s.arrived.map (·.2.envelope)) := by
    rw [Office.arrived, List.map_flatMap]
  have hsplit : telemetryOf (s.desks.flatMap fun k => k.accepted ++ k.refused.map Prod.fst) =
      telemetryOf (s.desks.flatMap (·.accepted)) + telemetryOf (s.desks.flatMap fun k => k.refused.map Prod.fst) := by
    simp only [telemetryOf_flatMap, telemetryOf_append, sum_map_add]
  rw [harrived] at hpast
  rw [hsplit]
  grind

/-! ## Runs -/

/-- The first worker delivers one envelope and loses one, and a third one is refused by it; the loss rides along with
what the second one delivers, who leaves one of two. -/
def lossyRun : List Event :=
  let step i := Event.desk i .step
  let offer i n := Event.desk i (.offer (tagged n) (some .queueOverflow))
  let quit i := [Event.desk i (.call .shutdown), .desk i (.look 0 0)]
  [.start true sharing, offer 0 1, offer 0 2, step 0, step 0, step 0, .desk 0 (.answer (.ok ())), step 0, step 0,
      step 0, .desk 0 (.answer (.error (.rejected 400 "")))] ++ quit 0 ++ [offer 0 3, step 0, step 0,
      .start true sharing, offer 1 4, offer 1 5, step 1, step 1, step 1, .desk 1 (.answer (.ok ()))] ++ quit 1 ++
    [step 1, step 1, step 1]

theorem telemetry_conserved_lossyRun :
    ∃ s : Office, run? (InTurn False Envelope.Plain "cache") { depot := {} } lossyRun = some s ∧ s.offered = 5 ∧
      reportedOf (s.arrived.map (·.2.envelope)) = 2 ∧ s.depot.storage.telemetry ⟨"cache"⟩ = 1 ∧
      Conserved { depot := {} } s ⟨"cache"⟩ := by
  have hrun : (run? (InTurn False Envelope.Plain "cache") { depot := {} } lossyRun).map (fun s =>
      decide ((∀ k ∈ s.desks, k.worker.phase = .stopped) ∧ (∀ k ∈ s.desks, ∀ x ∈ k.refused, x.2.isSome = true) ∧
        s.names < 10 ^ 6 ∧ s.offered = 5 ∧ reportedOf (s.arrived.map (·.2.envelope)) = 2 ∧
        s.depot.storage.telemetry ⟨"cache"⟩ = 1)) = some true := by decide +kernel
  obtain ⟨s, hs, hp⟩ := Option.map_eq_some_iff.mp hrun
  obtain ⟨hstop, hrefused, hnames, ho, hl, ht⟩ := of_decide_eq_true hp
  have hv : ({ depot := {} } : Office).Vacant ⟨"cache"⟩ := ⟨rfl, ⟨.nil, rfl⟩, rfl, rfl⟩
  have hr : Reach (InTurn False Envelope.Legible "cache") { depot := {} } s :=
    (Reach.of_run? hs).mono fun s e ha => ha.mono fun _ he => he.legible
  exact ⟨s, hs, ho, hl, ht, (telemetry_conserved hv rfl hr hstop hrefused hnames).1⟩

/-! ## What is not conserved -/

/-- The type of its item is a number, so that nobody can read it back. -/
def odd : Envelope := ⟨[], [⟨[("type", .ofNat 5)], .json (.str "")⟩]⟩

/-- A worker leaves it in a file, which the next one deletes. -/
def oddRun : List Event :=
  let step i := Event.desk i .step
  let quit i := [Event.desk i (.call .shutdown), .desk i (.look 0 0)]
  [.start true sharing, .desk 0 (.offer odd none)] ++ quit 0 ++ [step 0, step 0, step 0, .start true sharing] ++
    quit 1 ++ [step 1, step 1]

/-- Nobody hears of its losses. -/
def mute : Settings := { sharing with reportLosses := false }

/-- A worker that owns its directory and is done with as many envelopes as it has used up names. -/
def spender (q : UInt64) (n : Nat) : Worker :=
  { Worker.ofSettings mute (.durable
      { claim := { dir := ⟨"cache"⟩, lock := some (DirClaim.lockPath ⟨"cache"⟩) }
        enabled := true
        capacity := mute.cacheCapacity
        sequence := q } mute.retry) with
    accepted := n
    processed := n }

/-- That worker, while no file can be written. -/
def spending (q : UInt64) (n : Nat) : Office where
  depot := { storage := { files := {
    dirs := (MemoryFiles.createDirs {} ⟨"cache"⟩).dirs
    locks := [DirClaim.lockPath ⟨"cache"⟩]
    failWrites := true } } }
  desks := [{ worker := spender q n }]
  names := n

def delivery : Desk where
  worker := default
  accepted := [tagged 0]
  handed := [(⟨tagged 0, none, true⟩, ⟨tagged 0, none⟩)]
  answers := [(⟨tagged 0, none, true⟩, ⟨tagged 0, none⟩, .ok ())]
  settled := [(⟨tagged 0, none, true⟩, .delivered)]

def deliveries : Nat → Desk
  | 0 => { worker := default }
  | n + 1 => delivery.since (deliveries n)

theorem spending_next (q : UInt64) (n : Nat) :
    Reach (InTurn False Envelope.Plain "cache") (spending q n) ((spending (q + 1) (n + 1)).since delivery) := by
  have hplain : InTurn False Envelope.Plain "cache" (spending q n) (.desk 0 (.offer (tagged 0) none)) :=
    show (tagged 0).Plain by decide +kernel
  have h₁ := Reach.refl.next (.desk 0 (.offer (tagged 0) none)) hplain rfl
  have h₂ := h₁.next (.desk 0 .step) trivial rfl
  have h₃ := h₂.next (.desk 0 .step) trivial rfl
  have h₄ := h₃.next (.desk 0 .step) trivial rfl
  have h₅ := h₄.next (.desk 0 (.answer (.ok ()))) trivial rfl
  -- only the second step, in which the file is tried, uses up a name
  have hn : n + 1 = n + (q - q).toNat + (q - q).toNat + (q + 1 - q).toNat + (q + 1 - (q + 1)).toNat +
      (q + 1 - (q + 1)).toNat := by
    rw [show q - q = 0 by grind, show q + 1 - q = 1 by grind, show q + 1 - (q + 1) = 0 by grind]
    rfl
  have he : (spending (q + 1) (n + 1)).since delivery =
      { (spending (q + 1) (n + 1)).since delivery with
        names := n + (q - q).toNat + (q - q).toNat + (q + 1 - q).toNat + (q + 1 - (q + 1)).toNat +
          (q + 1 - (q + 1)).toNat } := by
    rw [← hn]
    rfl
  rw [he]
  exact h₅

/-- Names can be used up without an end. -/
theorem spending_reach (n : Nat) :
    Reach (InTurn False Envelope.Plain "cache") { depot := {} } ((spending n.toUInt64 n).since (deliveries n)) := by
  induction n with
  | zero =>
    have hin : InTurn False Envelope.Plain "cache" { depot := {} } (.start true mute) := ⟨rfl, rfl, by simp⟩
    exact (Reach.refl.next (.start true mute) hin rfl).next (.failWrites true) trivial rfl
  | succ n ih =>
    have hnext := ((spending_next n.toUInt64 n).since (by simp [spending]) (deliveries n)).1
    have hq : (n + 1).toUInt64 = n.toUInt64 + 1 := UInt64.ofNat_add n 1
    rw [since_since] at hnext
    rw [hq]
    exact ih.trans hnext

theorem deliveries_telemetry (n : Nat) :
    telemetryOf (deliveries n).accepted = telemetryOf ((deliveries n).arrived.map (·.2.envelope)) ∧
      (deliveries n).refused = [] ∧
      (deliveries n).arrived.map (·.2.envelope) = (deliveries n).arrived.map (·.1.envelope) := by
  induction n with
  | zero => exact ⟨rfl, rfl, rfl⟩
  | succ n ih =>
    have ha : (deliveries (n + 1)).arrived = (deliveries n).arrived ++ delivery.arrived := by
      simp [deliveries, Desk.arrived, Desk.since]
    refine ⟨?_, by simp [deliveries, Desk.since, ih.2.1, delivery], ?_⟩
    · rw [ha, List.map_append, telemetryOf_append, ← ih.1]
      exact telemetryOf_append ..
    · rw [ha, List.map_append, List.map_append, ih.2.2]
      rfl

/-- A name comes back after a million names, and the second file takes the place of the first one. -/
def overrun : List Event :=
  let step i := Event.desk i .step
  let offer i n := Event.desk i (.offer (tagged n) none)
  let quit i := [Event.desk i (.call .shutdown), .desk i (.look 0 0)]
  [.failWrites false, offer 0 1, offer 0 2, step 0, step 0] ++ quit 0 ++ [step 0, step 0, step 0, step 0,
    .start true mute, offer 1 3] ++ quit 1 ++ [step 1, step 1, step 1, step 1, step 1]

theorem since_arrived (hd : s.desks ≠ []) (before : Desk) :
    (s.since before).arrived = before.arrived ++ s.arrived := by
  obtain ⟨k, ks, hk⟩ := List.exists_cons_of_ne_nil hd
  simp [since, Office.arrived, Desk.arrived, hk, Desk.since]

theorem since_offered (hd : s.desks ≠ []) (before : Desk) :
    (s.since before).offered = telemetryOf before.accepted + telemetryOf (before.refused.map Prod.fst) + s.offered := by
  obtain ⟨k, ks, hk⟩ := List.exists_cons_of_ne_nil hd
  simp only [since, offered, hk, List.modifyHead_cons, List.flatMap_cons, Desk.since, telemetryOf_append,
    List.map_append]
  grind

theorem since_refused (hd : s.desks ≠ []) (before : Desk) (hb : before.refused = [])
    (hs : ∀ k ∈ s.desks, k.worker.phase = .stopped ∧ k.refused = []) :
    ∀ k ∈ (s.since before).desks, k.worker.phase = .stopped ∧ k.refused = [] := by
  obtain ⟨k, ks, hk⟩ := List.exists_cons_of_ne_nil hd
  rw [hk] at hs
  obtain ⟨hhead, htail⟩ := List.forall_mem_cons.mp hs
  rw [since, hk, List.modifyHead_cons]
  exact List.forall_mem_cons.mpr ⟨⟨hhead.1, by simp [Desk.since, hb, hhead.2]⟩, htail⟩

/-- What cannot be read back is lost without being counted, and so is what stands in a file whose name comes again. -/
theorem telemetry_not_conserved :
    (∃ s : Office, Reach (InTurn False (fun _ => True) "cache") { depot := {} } s ∧
      (∀ k ∈ s.desks, k.worker.phase = .stopped) ∧ (∀ k ∈ s.desks, k.refused = []) ∧ s.names < 10 ^ 6 ∧
      ¬ Conserved { depot := {} } s ⟨"cache"⟩) ∧
    ∃ s : Office, Reach (InTurn False Envelope.Legible "cache") { depot := {} } s ∧
      (∀ k ∈ s.desks, k.worker.phase = .stopped) ∧ (∀ k ∈ s.desks, k.refused = []) ∧
      ¬ Conserved { depot := {} } s ⟨"cache"⟩ := by
  constructor
  · have hrun : (run? (InTurn False (fun _ => True) "cache") { depot := {} } oddRun).map (fun s =>
        decide ((∀ k ∈ s.desks, k.worker.phase = .stopped) ∧ (∀ k ∈ s.desks, k.refused.isEmpty = true) ∧
          s.names < 10 ^ 6 ∧ ¬ Conserved { depot := {} } s ⟨"cache"⟩)) = some true := by decide +kernel
    obtain ⟨s, hs, hp⟩ := Option.map_eq_some_iff.mp hrun
    obtain ⟨hstop, hrefused, hnames, hc⟩ := of_decide_eq_true hp
    exact ⟨s, .of_run? hs, hstop, fun k hk => List.isEmpty_iff.mp (hrefused k hk), hnames, hc⟩
  · have hrun : (run? (InTurn False Envelope.Plain "cache") (spending 999999 999999) overrun).map (fun s =>
        decide (s.desks ≠ [] ∧ (∀ k ∈ s.desks, k.worker.phase = .stopped ∧ k.refused.isEmpty = true) ∧ s.offered = 3 ∧
          s.arrived.length = 0 ∧ s.depot.ledger.pendingSum = 0 ∧ s.depot.storage.telemetry ⟨"cache"⟩ = 2)) =
        some true := by decide +kernel
    obtain ⟨s, hs, hp⟩ := Option.map_eq_some_iff.mp hrun
    obtain ⟨hd, hquit, ho, ha, hledger, ht⟩ := of_decide_eq_true hp
    have hr := (spending_reach 999999).trans ((Reach.of_run? hs).since (by simp [spending]) (deliveries 999999)).1
    obtain ⟨hacc, href, hrep⟩ := deliveries_telemetry 999999
    have hk := since_refused hd (deliveries 999999) href fun k hk =>
      ⟨(hquit k hk).1, List.isEmpty_iff.mp (hquit k hk).2⟩
    refine ⟨s.since (deliveries 999999), hr.mono fun s e ha => ha.mono fun _ he => he.legible, fun k hm => (hk k hm).1,
      fun k hm => (hk k hm).2, ?_⟩
    have hs : (s.since (deliveries 999999)).depot = s.depot := rfl
    have hfirst : ({ depot := {} } : Office).depot.ledger.pendingSum = 0 := by decide +kernel
    rw [Conserved, since_offered hd, since_arrived hd, List.length_eq_zero_iff.mp ha, List.append_nil, hacc, href, hrep,
      ho, hs, hledger, ht, hfirst]
    -- three came in after the ones that arrived, and two are in the files
    generalize telemetryOf ((deliveries 999999).arrived.map (·.1.envelope)) = x
    generalize reportedOf ((deliveries 999999).arrived.map (·.1.envelope)) = y
    intro h
    have h : (3 : UInt64) = 2 := by
      simp only [List.map_nil, telemetryOf_nil] at h
      grind
    exact absurd h (by decide)

end Office

end Courier

import Courier.Proofs.Takeover

/-!
# Succession

Workers on one directory, each started when all others have stopped. Whoever came last has the directory, and the
files in it are those that his sheet tells of, with what earlier workers left in front.
-/

namespace Courier

/-! ## What was left -/

/-- What these workers left in their files, one after another, in the order in which the next one finds it. -/
inductive Past (steady : Prop) (fine : Envelope → Prop) : List Desk → List Envelope → Prop
  | nil : Past steady fine [] []
  | snoc {old : List Desk} {k : Desk} {earlier found : List Envelope} {done : Done} (hp : Past steady fine old earlier)
    (hset : k.settled.filter (·.1.filled) = done.map Prod.snd) (hsrc : earlier ++ k.accepted = done.map Prod.fst)
    (hread : ∀ x ∈ done, x.1.Reads x.2.1.envelope) (hfine : ∀ x ∈ done, fine x.1)
    (hf : found.Perm ((placesDone done).map Prod.fst)) (ho : steady → found = (placesDone done).map Prod.fst) :
    Past steady fine (old ++ [k]) found

section
variable {steady : Prop} {fine : Envelope → Prop} {ks : List Desk} {found found' : List Envelope}

theorem Past.set (h : Past steady fine ks found) {i : Nat} {k k' : Desk} (hk : ks[i]? = some k)
    (hset : k'.settled = k.settled) (ha : k'.accepted = k.accepted) : Past steady fine (ks.set i k') found := by
  induction h generalizing i with
  | nil => cases hk
  | @snoc old b earlier found done hp hset' hsrc hread hfine hf ho ih =>
    obtain ⟨hi, -⟩ := List.getElem?_eq_some_iff.mp hk
    rcases Nat.lt_or_ge i old.length with hlt | hge
    · rw [List.getElem?_append_left hlt] at hk
      rw [List.set_append_left _ _ hlt]
      exact .snoc (ih hk) hset' hsrc hread hfine hf ho
    · rw [List.length_append, List.length_singleton] at hi
      rw [List.getElem?_append_right hge, Nat.sub_eq_zero_of_le (by omega)] at hk
      cases hk
      rw [List.set_append_right _ _ hge, Nat.sub_eq_zero_of_le (by omega)]
      exact .snoc hp (hset.symm ▸ hset') (ha.symm ▸ hsrc) hread hfine hf ho

theorem Past.reorder (h : Past steady fine ks found) (hp : found'.Perm found) (ho : steady → found' = found) :
    Past steady fine ks found' := by
  cases h with
  | nil => rw [List.perm_nil.mp hp]; exact .nil
  | snoc hpast hset hsrc hread hfine hf ho' =>
    exact .snoc hpast hset hsrc hread hfine (hp.trans hf) fun hs => (ho hs).trans (ho' hs)

end

theorem Filed.same {steady : Prop} {dir : Path} {now now' : Timestamp} {q : UInt64} {fs fs' : Storage}
    {xs : List (Envelope × Path)} (hf : Filed steady dir now q fs xs) (hfiles : fs'.files.files = fs.files.files)
    (hden : fs'.denied = fs.denied) (hnow : steady → now.millis ≤ now'.millis) : Filed steady dir now' q fs' xs where
  fit := ⟨by rw [hfiles]; exact hf.fit.sorted, hden.trans hf.fit.allowed⟩
  shelf := by rw [Storage.shelf, hfiles]; exact hf.shelf
  named x hx := by
    obtain ⟨t, n, hn, hlt, hle⟩ := hf.named x hx
    exact ⟨t, n, hn, hlt, fun hs => UInt64.le_trans (hle hs) (hnow hs)⟩

theorem Desk.Shift.accepted_filled {k k' : Desk} {d d' : Depot} {e : Envelope} (h : k.Shift d k' d')
    (he : k'.accepted = k.accepted ++ [e]) : e.isEmpty = false := by
  cases h with
  | work _ _ _ _ ha => rw [ha] at he; simp at he
  | rest _ _ _ _ ha => rw [ha] at he; simp at he
  | accept _ hn _ _ _ ha =>
    rw [ha] at he
    cases List.append_cancel_left he
    exact hn

namespace Office

/-! ## Offices -/

/-- The worker at the last desk is the only one that may still be there, and its sheet tells of all files. -/
structure Manned (steady : Prop) (fine : Envelope → Prop) (dir : Path) (s : Office) (old : List Desk) (k : Desk)
    (earlier : List Envelope) (done : Done) (todo : Todo) : Prop where
  desks : s.desks = old ++ [k]
  stopped : ∀ b ∈ old, b.worker.phase = .stopped
  past : Past steady fine old earlier
  sheet : k.Sheet earlier done todo
  fine : ∀ e ∈ earlier ++ k.accepted, e.isEmpty = false ∧ fine e
  filed : Filed steady dir s.depot.clock.now k.worker.sequence s.depot.storage (places done todo)
  orderly : steady → Orderly done todo
  names : k.worker.sequence.toNat ≤ s.names

/-- One worker after another has the directory. Where `steady` holds, time stays within the digits of a name. -/
structure Serial (steady : Prop) (fine : Envelope → Prop) (dir : Path) (s : Office) : Prop where
  locked : s.Locked dir
  freed : ∀ k ∈ s.desks, k.worker.phase = .stopped → k.worker.owns = false
  free : (∀ k ∈ s.desks, k.worker.owns = false) → s.depot.storage.files.isLocked (DirClaim.lockPath dir) = false
  early : steady → s.depot.clock.now.millis.toNat < 10 ^ 13
  standing : (s.desks = [] ∧ Filed steady dir s.depot.clock.now 0 s.depot.storage []) ∨
    ∃ old k earlier done todo, s.Manned steady fine dir old k earlier done todo

/-- The workers are on this directory, one after another, and are offered such envelopes only. Where `steady`
holds, the clock does not go back, and stays within the digits of a name. -/
def InTurn (steady : Prop) (fine : Envelope → Prop) (dir : String) (s : Office) : Event → Prop
  | .desk _ (.offer e _) => fine e
  | .clock t => steady → s.depot.clock.now.millis ≤ t.millis ∧ t.millis.toNat < 10 ^ 13
  | .start durable settings =>
    durable = true ∧ settings.cacheDir = some dir ∧ ∀ k ∈ s.desks, k.worker.phase = .stopped
  | _ => True

theorem InTurn.mono {steady : Prop} {fine fine' : Envelope → Prop} {dir : String} {s : Office} {e : Event}
    (h : InTurn steady fine dir s e) (hf : ∀ e, fine e → fine' e) : InTurn steady fine' dir s e := by
  cases e with
  | desk i a =>
    cases a with
    | offer e reason? => exact hf e h
    | _ => trivial
  | clock t => exact h
  | failWrites on => trivial
  | start durable settings => exact h

instance (steady : Prop) [Decidable steady] (fine : Envelope → Prop) [DecidablePred fine] (dir : String) (s : Office)
    (e : Event) : Decidable (InTurn steady fine dir s e) :=
  match e with
  | .desk _ (.offer e _) => inferInstanceAs (Decidable (fine e))
  | .clock t => inferInstanceAs (Decidable (steady → s.depot.clock.now.millis ≤ t.millis ∧ t.millis.toNat < 10 ^ 13))
  | .start durable settings =>
    inferInstanceAs (Decidable (durable = true ∧ settings.cacheDir = some dir ∧ ∀ k ∈ s.desks, k.worker.phase = .stopped))
  | .desk _ .step | .desk _ (.answer _) | .desk _ .resume | .desk _ (.call _) | .desk _ (.look _ _) | .failWrites _ =>
    .isTrue trivial

/-- What stands in the files when all workers have stopped. -/
structure Resting (steady : Prop) (fine : Envelope → Prop) (dir : Path) (s : Office) (q : UInt64)
    (xs : List (Envelope × Path)) : Prop where
  past : Past steady fine s.desks (xs.map Prod.fst)
  filed : Filed steady dir s.depot.clock.now q s.depot.storage xs
  fine : ∀ x ∈ xs, x.1.isEmpty = false ∧ fine x.1
  sorted : steady → xs.Pairwise fun a b => a.2.before b.2 = true
  names : q.toNat ≤ s.names

variable {steady : Prop} {dir : String} {fine : Envelope → Prop} {s t first : Office} {old : List Desk} {k : Desk}
variable {earlier : List Envelope} {done : Done} {todo : Todo}

theorem mem_placesDone {x : Envelope × Path} (hx : x ∈ placesDone done) : x.1 ∈ done.map Prod.fst := by
  obtain ⟨y, hy, h⟩ := List.mem_filterMap.mp hx
  obtain ⟨g, -, rfl⟩ := Option.map_eq_some_iff.mp h
  exact List.mem_map_of_mem hy

theorem Serial.resting (hs : s.Serial steady fine ⟨dir⟩) (hstop : ∀ k ∈ s.desks, k.worker.phase = .stopped) :
    ∃ q xs, s.Resting steady fine ⟨dir⟩ q xs := by
  rcases hs.standing with ⟨hd, hf⟩ | ⟨old, k, earlier, done, todo, hm⟩
  · exact ⟨0, [], by rw [hd]; exact .nil, hf, by simp, fun _ => .nil, Nat.zero_le _⟩
  · have hk : k ∈ s.desks := by simp [hm.desks]
    have htodo : todo = [] := by
      have hw := hm.sheet.waiting
      rw [(hs.locked.sound k hk).parcels (hstop k hk)] at hw
      exact List.map_eq_nil_iff.mp hw.symm
    subst htodo
    have hpl : places done [] = placesDone done := List.append_nil _
    have hsrc : earlier ++ k.accepted = done.map Prod.fst := by simpa using hm.sheet.sources
    refine ⟨k.worker.sequence, placesDone done, ?_, hpl ▸ hm.filed, fun x hx => ?_, fun h => ?_, hm.names⟩
    · rw [hm.desks]
      refine .snoc hm.past hm.sheet.settled hsrc hm.sheet.read (fun x hx => ?_) (.refl _) fun _ => rfl
      exact (hm.fine x.1 (hsrc ▸ List.mem_map_of_mem hx)).2
    · exact hm.fine x.1 (hsrc ▸ mem_placesDone hx)
    · exact hpl ▸ (hm.orderly h).sorted

/-! ## Steps -/

theorem Serial.same {depot : Depot} (hs : s.Serial steady fine ⟨dir⟩)
    (hfiles : depot.storage.files.files = s.depot.storage.files.files)
    (hlocks : depot.storage.files.locks = s.depot.storage.files.locks)
    (hden : depot.storage.denied = s.depot.storage.denied)
    (hnow : steady → s.depot.clock.now.millis ≤ depot.clock.now.millis ∧ depot.clock.now.millis.toNat < 10 ^ 13) :
    ({ s with depot := depot } : Office).Serial steady fine ⟨dir⟩ := by
  refine ⟨hs.locked.same hden hlocks, hs.freed, fun h => ?_, fun h => (hnow h).2, ?_⟩
  · rw [MemoryFiles.isLocked, hlocks]
    exact hs.free h
  · rcases hs.standing with ⟨hd, hf⟩ | ⟨old, k, earlier, done, todo, hm⟩
    · exact .inl ⟨hd, hf.same hfiles hden fun h => (hnow h).1⟩
    · exact .inr ⟨old, k, earlier, done, todo, hm.desks, hm.stopped, hm.past, hm.sheet, hm.fine,
        hm.filed.same hfiles hden fun h => (hnow h).1, hm.orderly, hm.names⟩

/-- Who has stopped does nothing to the files. -/
theorem Manned.other {i : Nat} {b b' : Desk} (hm : s.Manned steady fine ⟨dir⟩ old k earlier done todo)
    (hb : old[i]? = some b) (hc : b.Closed b' s.depot t.depot) (hclock : t.depot.clock = s.depot.clock)
    (hd : t.desks = s.desks.set i b') (hn : t.names = s.names + (b'.worker.sequence - b.worker.sequence).toNat) :
    t.Manned steady fine ⟨dir⟩ (old.set i b') k earlier done todo := by
  obtain ⟨hi, -⟩ := List.getElem?_eq_some_iff.mp hb
  refine ⟨?_, forall_mem_set hm.stopped hc.phase, hm.past.set hb hc.settled hc.accepted, hm.sheet, hm.fine, ?_,
    hm.orderly, Nat.le_trans hm.names (by omega)⟩
  · rw [hd, hm.desks, List.set_append_left _ _ hi]
  · rw [hclock, hc.storage]
    exact hm.filed

theorem sequence_le (q q' : UInt64) : q'.toNat ≤ q.toNat + (q' - q).toNat := by
  have h := UInt64.toNat_add q (q' - q)
  rw [show q + (q' - q) = q' by grind] at h
  rw [h]
  exact Nat.mod_le _ _

theorem Manned.last {k' : Desk} (hm : s.Manned steady fine ⟨dir⟩ old k earlier done todo)
    (hc : k.Change s.depot k' t.depot) (hw : k.worker.Housed ⟨dir⟩)
    (hnew : ∀ e, k'.accepted = k.accepted ++ [e] → fine e)
    (hgrow : k'.accepted = k.accepted ∨ ∃ e, k'.accepted = k.accepted ++ [e])
    (hd : t.desks = old ++ [k']) (hn : t.names = s.names + (k'.worker.sequence - k.worker.sequence).toNat)
    (hbound : s.names < SpillDir.modulus.toNat) (hearly : steady → s.depot.clock.now.millis.toNat < 10 ^ 13) :
    ∃ done' todo', t.Manned steady fine ⟨dir⟩ old k' earlier done' todo' := by
  have hq : k.worker.sequence < SpillDir.modulus := UInt64.lt_iff_toNat_lt.mpr (Nat.lt_of_le_of_lt hm.names hbound)
  obtain ⟨done', todo', hf, hs⟩ := hc.shift.filing hm.sheet hw
  refine ⟨done', todo', hd, hm.stopped, hm.past, hs, ?_, ?_, fun h => ?_, ?_⟩
  · rcases hgrow with ha | ⟨e, ha⟩
    · rw [ha]
      exact hm.fine
    · rw [ha, ← List.append_assoc]
      refine List.forall_mem_append.mpr ⟨hm.fine, ?_⟩
      simpa using And.intro (hc.shift.accepted_filled ha) (hnew e ha)
  · rw [hc.clock]
    exact hf.filed hq hm.filed
  · exact hf.orderly hm.filed h hq (hearly h) (hm.orderly h)
  · have hle := sequence_le k.worker.sequence k'.worker.sequence
    have := hm.names
    omega

theorem Serial.desk {i : Nat} {a : Act} (hs : s.Serial steady fine ⟨dir⟩)
    (ha : InTurn steady fine dir s (.desk i a)) (hbound : s.names < SpillDir.modulus.toNat)
    (h : s.after? (.desk i a) = some t) : t.Serial steady fine ⟨dir⟩ := by
  obtain ⟨k, k', hk, hact, hd, hn⟩ := after?_act h
  have hc := Desk.act?_change hact
  have hkm := List.mem_of_getElem? hk
  have hsound := hs.locked.sound k hkm
  have hhoused := hs.locked.housed k hkm
  refine ⟨hs.locked.desk h, ?_, fun hfree => ?_, fun hst => by rw [hc.clock]; exact hs.early hst, ?_⟩
  · rw [hd]
    exact forall_mem_set hs.freed fun hp => hc.freed hsound (hs.freed k hkm) hp
  · rcases hc.owner hhoused with ⟨ho, hlocks⟩ | ⟨-, hl⟩
    · rw [MemoryFiles.isLocked, hlocks]
      refine hs.free fun b hb => ?_
      obtain ⟨j, hj⟩ := List.getElem?_of_mem hb
      by_cases hij : i = j
      · cases hij
        cases hk.symm.trans hj
        rw [← ho]
        exact hfree k' (hd ▸ List.mem_set (List.getElem?_eq_some_iff.mp hk).1 k')
      · exact hfree b (hd ▸ List.mem_of_getElem? (by rwa [List.getElem?_set_ne hij]))
    · exact hl
  -- all workers but the last have stopped, so the sheet grows by what the last one does
  · rcases hs.standing with ⟨hnone, -⟩ | ⟨old, last, earlier, done, todo, hm⟩
    · rw [hnone] at hk
      cases hk
    · right
      rcases getElem?_snoc_cases (hm.desks ▸ hk) with hold | ⟨hi, rfl⟩
      · have hclosed := hc.closed hsound (hm.stopped k (List.mem_of_getElem? hold))
        exact ⟨_, last, earlier, done, todo, hm.other hold hclosed hc.clock hd hn⟩
      · have hd' : t.desks = old ++ [k'] := by simp [hd, hm.desks, hi]
        have hnew : ∀ e, k'.accepted = k.accepted ++ [e] → fine e := by
          intro e he
          rcases Desk.act?_accepted hact with hsame | ⟨e', reason?, rfl, hadd⟩
          · rw [hsame] at he
            simp at he
          · rw [hadd] at he
            cases List.append_cancel_left he
            exact ha
        have hgrow : k'.accepted = k.accepted ∨ ∃ e, k'.accepted = k.accepted ++ [e] := by
          rcases Desk.act?_accepted hact with hsame | ⟨e, -, -, hadd⟩
          · exact .inl hsame
          · exact .inr ⟨e, hadd⟩
        obtain ⟨done', todo', hm'⟩ := hm.last hc hhoused hnew hgrow hd' hn hbound hs.early
        exact ⟨old, k', earlier, done', todo', hm'⟩

/-- What the next worker takes over is what the others left. -/
theorem Resting.takes {settings : Settings} {w : Worker} {fs' : Storage} {q : UInt64} {xs : List (Envelope × Path)}
    (hr : s.Resting steady fine ⟨dir⟩ q xs) (hfine : ∀ e, fine e → e.Legible)
    (hbound : s.names < SpillDir.modulus.toNat) (hd : settings.cacheDir = some dir)
    (hl : s.depot.storage.files.isLocked (DirClaim.lockPath ⟨dir⟩) = false)
    (hw : Worker.Started settings s.depot.storage w fs') :
    ∃ ys, w.Takes steady ⟨dir⟩ s.depot.clock.now fs' ys ∧ Past steady fine s.desks (ys.map Prod.fst) ∧
      (∀ y ∈ ys, y.1.isEmpty = false ∧ fine y.1) ∧ w.sequence.toNat ≤ s.names := by
  have hq : q < SpillDir.modulus := UInt64.lt_iff_toNat_lt.mpr (Nat.lt_of_le_of_lt hr.names hbound)
  obtain ⟨ys, hp, ht, hle⟩ := hw.takes hd hl hr.filed hq fun x hx => (hr.fine x hx).imp_right (hfine x.1)
  refine ⟨ys, ht, hr.past.reorder (hp.map Prod.fst) fun h => ?_, fun y hy => hr.fine y (hp.mem_iff.mp hy),
    Nat.le_trans (UInt64.le_iff_toNat_le.mp hle) hr.names⟩
  rw [hp.eq_of_pairwise (fun a b _ _ hab hba => ?_) ht.order (hr.sorted h)]
  rw [Path.before_asymm hab] at hba
  cases hba

theorem Serial.start {settings : Settings} (hs : s.Serial steady fine ⟨dir⟩) (hfine : ∀ e, fine e → e.Legible)
    (hd : settings.cacheDir = some dir) (hstop : ∀ k ∈ s.desks, k.worker.phase = .stopped)
    (hbound : s.names < SpillDir.modulus.toNat) : (s.started true settings).Serial steady fine ⟨dir⟩ := by
  have hlocked := hs.locked.start hd
  have hl := hs.free fun k hk => hs.freed k hk (hstop k hk)
  rcases s.started_cases settings with ⟨e, fs, hw, ht⟩ | ⟨w, fs, hw, ht⟩
  · rw [ht]
    obtain ⟨hlocks, hfiles, hden⟩ := Worker.startDurable_error hw
    exact hs.same hfiles hlocks hden fun h => ⟨UInt64.le_refl _, hs.early h⟩
  · have hst := Worker.startDurable_started hw
    have howns := hst.owns hd hl
    obtain ⟨q, xs, hr⟩ := hs.resting hstop
    obtain ⟨ys, hy, hpast, hleg, hnames⟩ := hr.takes hfine hbound hd hl hst
    rw [ht] at hlocked ⊢
    refine ⟨hlocked, ?_, fun hfree => ?_, hs.early, .inr ⟨s.desks, .opened w, ys.map Prod.fst, [], todoOf ys, ?_⟩⟩
    · refine List.forall_mem_append.mpr ⟨hs.freed, ?_⟩
      simp [Desk.opened, hst.fresh.phase]
    · have := hfree (.opened w) (by simp)
      rw [Desk.opened, howns] at this
      cases this
    · refine ⟨rfl, hstop, hpast, hy.sheet hst.fresh ?_, ?_, by simpa [Desk.opened] using hy.filed,
        fun _ => hy.orderly, hnames⟩
      · exact fun y hm => (hleg y hm).imp_right (hfine y.1)
      · rw [show (Desk.opened w).accepted = [] from rfl, List.append_nil]
        exact List.forall_mem_map.mpr hleg

theorem Serial.next {e : Event} (hs : s.Serial steady fine ⟨dir⟩) (hfine : ∀ e, fine e → e.Legible)
    (ha : InTurn steady fine dir s e) (hbound : s.names < SpillDir.modulus.toNat) (h : s.after? e = some t) :
    t.Serial steady fine ⟨dir⟩ := by
  cases e with
  | desk i a => exact hs.desk ha hbound h
  | clock n => cases h; exact hs.same rfl rfl rfl ha
  | failWrites on => cases h; exact hs.same rfl rfl rfl fun h => ⟨UInt64.le_refl _, hs.early h⟩
  | start durable settings =>
    obtain ⟨rfl, hd, hstop⟩ := ha
    cases h
    exact hs.start hfine hd hstop hbound

/-! ## Runs -/

theorem names_le {e : Event} (h : s.after? e = some t) : s.names ≤ t.names := by
  cases e with
  | desk i a =>
    obtain ⟨k, k', -, -, -, hn⟩ := after?_act h
    omega
  | clock n => cases h; exact Nat.le_refl _
  | failWrites on => cases h; exact Nat.le_refl _
  | start durable settings => cases h; exact Nat.le_refl _

/-- Nobody is there yet, and nothing stands in the directory. -/
structure Vacant (dir : Path) (s : Office) : Prop where
  desks : s.desks = []
  fit : s.depot.storage.Fit
  empty : s.depot.storage.shelf dir = []
  free : s.depot.storage.files.isLocked (DirClaim.lockPath dir) = false

theorem Vacant.serial (hv : s.Vacant ⟨dir⟩) (hearly : steady → s.depot.clock.now.millis.toNat < 10 ^ 13) :
    s.Serial steady fine ⟨dir⟩ := by
  refine ⟨⟨hv.fit.allowed, ?_, ?_, ?_, ?_⟩, ?_, fun _ => hv.free, hearly, .inl ⟨hv.desks, hv.fit, ?_, by simp⟩⟩
  · simp [hv.desks]
  · simp [hv.desks]
  · simp [hv.desks]
  · simp [hv.desks]
  · simp [hv.desks]
  · rw [hv.empty]
    exact .refl _

/-- As long as the names suffice, one worker after another has the directory. -/
theorem Reach.serial (hr : Reach (InTurn steady fine dir) first s) (hfine : ∀ e, fine e → e.Legible)
    (hv : first.Vacant ⟨dir⟩) (hearly : steady → first.depot.clock.now.millis.toNat < 10 ^ 13)
    (hbound : s.names < SpillDir.modulus.toNat) : s.Serial steady fine ⟨dir⟩ := by
  induction hr with
  | refl => exact hv.serial hearly
  | next e _ ha ht ih =>
    have hbound' := Nat.lt_of_le_of_lt (names_le ht) hbound
    exact (ih hbound').next hfine ha hbound' ht

end Office

end Courier

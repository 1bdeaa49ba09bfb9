import Courier.Proofs.Order
import Courier.Proofs.Spill

/-!
# One owner

Whatever the workers on a directory do, at most one of them holds its lock, and only that one has envelopes in
files. It holds the lock until it is done with all of them.
-/

namespace Courier

/-! ## Storage -/

namespace Storage

variable {fs fs' : Storage}

/-- As `fs`, but for the files themselves. -/
structure Frame (fs fs' : Storage) : Prop where
  dirs : fs'.files.dirs = fs.files.dirs
  locks : fs'.files.locks = fs.files.locks
  denied : fs'.denied = fs.denied

theorem Frame.refl (fs : Storage) : fs.Frame fs := ⟨rfl, rfl, rfl⟩

theorem Frame.trans {fs₁ fs₂ fs₃ : Storage} (h : fs₁.Frame fs₂) (h' : fs₂.Frame fs₃) : fs₁.Frame fs₃ :=
  ⟨h'.dirs.trans h.dirs, h'.locks.trans h.locks, h'.denied.trans h.denied⟩

theorem Frame.isLocked (h : fs.Frame fs') (p : Path) : fs'.files.isLocked p = fs.files.isLocked p := by
  simp only [MemoryFiles.isLocked, h.locks]

theorem holding_frame (fs : Storage) (file : Path) (data : Bytes) : fs.Frame (fs.holding file data) := ⟨rfl, rfl, rfl⟩

theorem remove_frame (fs : Storage) (file : Option Path) : fs.Frame (SpillDir.remove fs file) := by
  unfold SpillDir.remove
  split
  · unfold Storage.remove
    split <;> exact ⟨rfl, rfl, rfl⟩
  · exact .refl fs

theorem loadAll_frame (fs : Storage) (files : List Path) : fs.Frame (SpillDir.loadAll fs files).2 := by
  fun_induction SpillDir.loadAll fs files with
  | case1 => exact .refl _
  | case2 fs file rest e he found fs' hl ih => rw [hl] at ih; exact ih
  | case3 fs file rest he ih => exact (remove_frame fs (some file)).trans ih

theorem recover_frame {s s' : SpillDir} {backlog : List (Envelope × Path)} (h : s.recover fs = (backlog, s', fs')) :
    fs.Frame fs' := by
  unfold SpillDir.recover at h
  split at h
  · cases h; exact .refl fs
  · next files hf =>
    have hl := loadAll_frame fs files
    cases h
    exact hl

theorem put_frame {h h' : Handling} {now : Timestamp} {e : Envelope} {r : Spilled}
    (hp : h.Put fs now e r h' fs') : fs.Frame fs' := by
  cases hp with
  | refused => exact .refl fs
  | wasted => exact .refl fs
  | written => exact holding_frame ..

end Storage

/-! ## Claims -/

namespace Storage

variable {fs fs' : Storage} {p : Path}

theorem createDirs_ok {u : Unit} (h : fs.createDirs p = (.ok u, fs')) :
    fs' = { fs with files := fs.files.createDirs p } := by
  unfold Storage.createDirs at h
  split at h <;> cases h
  rfl

theorem tryLock_none (h : fs.tryLock p = .ok none) : fs.files.isLocked p = true := by
  unfold Storage.tryLock MemoryFiles.tryLock at h
  split at h
  · cases h
  · split at h
    · cases h
    · next hn =>
      split at hn
      · cases hn
      · split at hn
        · next hl => exact hl
        · cases hn
    · cases h

theorem tryLock_some {l : Path} (h : fs.tryLock p = .ok (some (l, fs'))) :
    l = p ∧ fs.files.isLocked p = false ∧
      fs' = { fs with files := { fs.files with locks := fs.files.locks ++ [p] } } := by
  unfold Storage.tryLock at h
  split at h
  · cases h
  · split at h
    · cases h
    · cases h
    · next lock files hn =>
      cases h
      obtain ⟨hp, hl, hfiles⟩ := MemoryFiles.tryLock_eq_some hn
      exact ⟨hp, hl, by rw [hfiles]⟩

end Storage

namespace DirClaim

variable {dir : Path} {claim : DirClaim Path} {fs fs' : Storage}

theorem acquire_cases {owned : Bool} (h : ({ dir } : DirClaim Path).acquire fs = (.ok owned, claim, fs')) :
    ∃ fs₁, fs₁ = { fs with files := fs.files.createDirs dir } ∧
      ((owned = false ∧ fs₁.tryLock (lockPath dir) = .ok none ∧ claim = { dir } ∧ fs' = fs₁) ∨
        (owned = true ∧ ∃ l, fs₁.tryLock (lockPath dir) = .ok (some (l, fs')) ∧ claim = { dir, lock := some l })) := by
  unfold acquire at h
  simp only [isAcquired, Option.isSome_none, Bool.false_eq_true, ite_false, FileSystem.createDirs,
    FileSystem.tryLock] at h
  rcases hc : fs.createDirs dir with ⟨e | u, fs₁⟩
  · simp [hc] at h
  · simp only [hc] at h
    refine ⟨fs₁, Storage.createDirs_ok hc, ?_⟩
    split at h
    · cases h
    · next ht => cases h; exact .inl ⟨rfl, ht, rfl, rfl⟩
    · next l fs₂ ht => cases h; exact .inr ⟨rfl, l, ht, rfl⟩

theorem acquire_error {e : CacheError} (h : ({ dir } : DirClaim Path).acquire fs = (.error e, claim, fs')) :
    fs'.files.locks = fs.files.locks ∧ fs'.files.files = fs.files.files ∧ fs'.denied = fs.denied := by
  unfold acquire at h
  simp only [isAcquired, Option.isSome_none, Bool.false_eq_true, ite_false, FileSystem.createDirs,
    FileSystem.tryLock] at h
  rcases hc : fs.createDirs dir with ⟨er | u, fs₁⟩
  · simp only [hc] at h
    unfold Storage.createDirs at hc
    split at hc <;> cases hc
    cases h
    exact ⟨rfl, rfl, rfl⟩
  · simp only [hc] at h
    cases Storage.createDirs_ok hc
    split at h <;> cases h
    exact ⟨rfl, rfl, rfl⟩

theorem acquire_true (h : ({ dir } : DirClaim Path).acquire fs = (.ok true, claim, fs')) :
    claim = { dir, lock := some (lockPath dir) } ∧ fs.files.isLocked (lockPath dir) = false ∧
      fs'.files.locks = fs.files.locks ++ [lockPath dir] ∧ fs'.files.files = fs.files.files ∧
      fs'.denied = fs.denied := by
  obtain ⟨fs₁, rfl, ⟨ho, -⟩ | ⟨-, l, ht, rfl⟩⟩ := acquire_cases h
  · cases ho
  · obtain ⟨rfl, hl, rfl⟩ := Storage.tryLock_some ht
    exact ⟨rfl, hl, rfl, rfl, rfl⟩

theorem acquire_false (h : ({ dir } : DirClaim Path).acquire fs = (.ok false, claim, fs')) :
    claim = { dir } ∧ fs.files.isLocked (lockPath dir) = true ∧ fs'.files.locks = fs.files.locks ∧
      fs'.files.files = fs.files.files ∧ fs'.denied = fs.denied := by
  obtain ⟨fs₁, rfl, ⟨-, ht, rfl, rfl⟩ | ⟨ho, -⟩⟩ := acquire_cases h
  · have hl := Storage.tryLock_none ht
    exact ⟨rfl, hl, rfl, rfl, rfl⟩
  · cases ho

end DirClaim

/-! ## Owners -/

namespace Worker

def owns (w : Worker) : Bool :=
  match w.handling with
  | .once => false
  | .durable s _ => s.claim.lock.isSome

/-- What holds of a worker on this directory, by itself. -/
structure Housed (w : Worker) (dir : Path) : Prop where
  claim : ∀ s retry, w.handling = .durable s retry →
    s.claim.dir = dir ∧ (s.claim.lock = none ∨ s.claim.lock = some (DirClaim.lockPath dir))
  /-- Files are written by who holds the lock. -/
  enabled : ∀ s retry, w.handling = .durable s retry → s.enabled = true → w.owns = true ∨ w.phase = .stopped
  files : ∀ p ∈ w.parcels, p.file.isSome = true → w.owns = true

variable {w : Worker} {d : Depot} {p : Parcel} {dir : Path}

theorem owns_of_handling {v w : Worker} (h : v.handling = w.handling) : v.owns = w.owns := by
  simp only [owns, h]

theorem Move.not_stopped {x : Stride} (hm : w.Move d x) (hw : w.Sound) : w.phase ≠ .stopped := by
  cases hm with
  | close hp => exact hw.open (by simp [hp])
  | take hp => exact hw.open (by simp [hp])
  | begin hp => exact hw.open (by simp [hp])
  | hand hp => exact hw.open (by simp [hp])
  | blank hp => exact hw.open (by simp [hp])
  | pause hp => exact hw.open (by simp [hp])
  | fail hp => exact hw.open (by simp [hp])
  | yield hy =>
    cases hy with
    | due hp => exact hw.open (by simp [hp])
    | pausing hp => exact hw.open (by simp [hp])
  | abandon hp => exact hw.open (by simp [hp])
  | stop hp => exact hw.open (by simp [hp])

theorem put_handling {fs fs' : Storage} {now : Timestamp} {e : Envelope} {r : Spilled} {h : Handling}
    (hr : w.handling.Put fs now e r h fs') :
    h = w.handling ∨ ∃ s s' retry, w.handling = .durable s retry ∧ h = .durable s' retry ∧ s'.claim = s.claim ∧
      s'.enabled = s.enabled ∧ s.enabled = true := by
  cases hr with
  | refused => exact .inl rfl
  | wasted hh he => exact .inr ⟨_, _, _, hh, rfl, rfl, rfl, he⟩
  | written hh he => exact .inr ⟨_, _, _, hh, rfl, rfl, rfl, he⟩

theorem put_owns {fs fs' : Storage} {now : Timestamp} {e : Envelope} {r : Spilled} {v : Worker}
    (hr : w.handling.Put fs now e r v.handling fs') : v.owns = w.owns := by
  rcases put_handling hr with h | ⟨s, s', retry, hw, hv, hc, -⟩
  · exact owns_of_handling h
  · simp only [owns, hw, hv, hc]

theorem Housed.put {fs fs' : Storage} {now : Timestamp} {e : Envelope} {r : Spilled} {v : Worker} (hw : w.Housed dir)
    (hs : w.phase ≠ .stopped) (hr : w.handling.Put fs now e r v.handling fs')
    (hf : ∀ p ∈ v.parcels, p.file.isSome = true → w.owns = true) : v.Housed dir := by
  have ho := put_owns hr
  rcases put_handling hr with h | ⟨s, s', retry, hws, hv, hc, he, hen⟩
  · refine ⟨fun s retry hh => hw.claim s retry (h ▸ hh), fun s retry hh he => .inl ?_,
      fun p hp hg => ho.trans (hf p hp hg)⟩
    exact ho.trans ((hw.enabled s retry (h ▸ hh) he).resolve_right hs)
  · refine ⟨fun t retry' hh => ?_, fun t retry' hh _ => .inl ?_, fun p hp hg => ho.trans (hf p hp hg)⟩
    · rw [hv] at hh
      cases hh
      rw [hc]
      exact hw.claim s retry hws
    · exact ho.trans ((hw.enabled s retry hws hen).resolve_right hs)

theorem Housed.put_file {fs fs' : Storage} {now : Timestamp} {e : Envelope} {r : Spilled} {h : Handling}
    (hw : w.Housed dir) (hs : w.phase ≠ .stopped) (hr : w.handling.Put fs now e r h fs')
    (hf : r.file?.isSome = true) : w.owns = true := by
  cases hr with
  | refused hn => rw [hn] at hf; cases hf
  | wasted => cases hf
  | written hh he => exact (hw.enabled _ _ hh he).resolve_right hs

theorem Housed.same {v : Worker} (hw : w.Housed dir) (hh : v.handling = w.handling)
    (hs : w.phase = .stopped → v.phase = .stopped) (hp : ∀ p ∈ v.parcels, p.file.isSome = true → p ∈ w.parcels) :
    v.Housed dir :=
  ⟨fun s retry h => hw.claim s retry (hh ▸ h),
    fun s retry h he => (hw.enabled s retry (hh ▸ h) he).imp (owns_of_handling hh).trans hs,
    fun p h hg => (owns_of_handling hh).trans (hw.files p (hp p h hg) hg)⟩

/-- A worker on a directory stays on it, and does not come to own it. -/
theorem Shelving.housed {x : Stride} (hx : w.Shelving d x) (hw : w.Housed dir) (hs : w.phase ≠ .stopped) :
    x.worker.Housed dir ∧ (x.worker.owns = true → w.owns = true) := by
  cases hx with
  | stay _ hp hh =>
    exact ⟨hw.same hh (fun h => (hs h).elim) fun p h _ => hp ▸ h, fun h => (owns_of_handling hh).symm.trans h⟩
  | @file p rest r hp hn hr _ hp' =>
    refine ⟨hw.put hs hr fun q hq hg => ?_, fun h => (put_owns hr).symm.trans h⟩
    rw [hp'] at hq
    rcases List.mem_cons.mp hq with rfl | hq
    · exact hw.put_file hs hr hg
    · exact hw.files q (by simp [hp, hq]) hg
  | drop hp _ _ hp' hh =>
    exact ⟨hw.same hh (fun h => (hs h).elim) fun q hq _ => by rw [hp'] at hq; simp [hp, hq],
      fun h => (owns_of_handling hh).symm.trans h⟩
  | keep hp _ _ hp' hh =>
    exact ⟨hw.same hh (fun h => (hs h).elim) fun q hq _ => by rw [hp'] at hq; simp [hp, hq],
      fun h => (owns_of_handling hh).symm.trans h⟩
  | forsake hp hn hr _ hp' =>
    refine ⟨hw.put hs hr fun q hq hg => ?_, fun h => (put_owns hr).symm.trans h⟩
    rw [hp'] at hq
    exact hw.files q (by simp [hp, hq]) hg
  | lose hp _ _ hp' hh =>
    exact ⟨hw.same hh (fun h => (hs h).elim) fun q hq _ => by rw [hp'] at hq; simp [hp, hq],
      fun h => (owns_of_handling hh).symm.trans h⟩
  | stop hp ho _ hp' hq hh =>
    refine ⟨⟨fun s retry h => ?_, fun _ _ _ _ => .inr hq, fun q hm => by simp [hp'] at hm⟩, fun h => ?_⟩
    · rw [hh] at h
      cases h
      exact ⟨(hw.claim _ _ ho).1, .inl rfl⟩
    · simp [owns, hh, DirClaim.dispose] at h

/-- Locks change only when an owner stops. -/
theorem Shelving.locks {x : Stride} (hx : w.Shelving d x) :
    x.depot.storage.denied = d.storage.denied ∧
      (x.depot.storage.files.locks = d.storage.files.locks ∨ w.owns = true ∧ x.worker.owns = false) := by
  cases hx with
  | stay _ _ _ hf => rw [hf]; exact ⟨rfl, .inl rfl⟩
  | file _ _ hr => exact ⟨(Storage.put_frame hr).denied, .inl (Storage.put_frame hr).locks⟩
  | drop _ _ _ _ _ hd =>
    rw [hd]
    exact ⟨(Storage.remove_frame ..).denied, .inl (Storage.remove_frame ..).locks⟩
  | keep _ _ _ _ _ hd => rw [hd]; exact ⟨rfl, .inl rfl⟩
  | forsake _ _ hr => exact ⟨(Storage.put_frame hr).denied, .inl (Storage.put_frame hr).locks⟩
  | lose _ _ _ _ _ hd => rw [hd]; exact ⟨rfl, .inl rfl⟩
  | @stop s retry _ ho _ _ _ hh hd =>
    rw [hd]
    cases hl : s.claim.lock with
    | none => exact ⟨by simp [DirClaim.dispose, hl], .inl (by simp [DirClaim.dispose, hl])⟩
    | some l =>
      refine ⟨by simp [DirClaim.dispose, hl, FileSystem.unlock, Storage.unlock], .inr ⟨by simp [owns, ho, hl], ?_⟩⟩
      simp [owns, hh, DirClaim.dispose]

theorem Polled.housed {w' : Worker} (hp : w.Polled w') (hw : w.Housed dir) : w'.Housed dir ∧ w'.owns = w.owns := by
  have hf : ∀ p ∈ w'.parcels, p.file.isSome = true → p ∈ w.parcels := by
    intro p hm hg
    rcases hp.parcels with h | h
    · exact h ▸ hm
    · rw [h] at hm
      rcases List.mem_append.mp hm with hm | hm
      · exact hm
      · cases List.mem_singleton.mp hm
        cases hg
  cases hp with
  | same => exact ⟨hw, rfl⟩
  | report => exact ⟨hw.same rfl id hf, rfl⟩
  | begun hs => exact ⟨hw.same rfl (fun h => by rw [hs] at h; cases h) hf, rfl⟩
  | ended hs => exact ⟨hw.same rfl (fun h => by rw [hs] at h; cases h) hf, rfl⟩
  | aborted => exact ⟨hw.same rfl id hf, rfl⟩

/-! ## Starts -/

variable {settings : Settings} {fs fs' : Storage}

theorem startDurable_error {e : DeliveryError} (h : startDurable settings fs = (.error e, fs')) :
    fs'.files.locks = fs.files.locks ∧ fs'.files.files = fs.files.files ∧ fs'.denied = fs.denied := by
  unfold startDurable at h
  split at h
  · cases h; exact ⟨rfl, rfl, rfl⟩
  · split at h
    · cases h; exact ⟨rfl, rfl, rfl⟩
    · next dir hd =>
      split at h
      · next er claim fs₁ ha => cases h; exact DirClaim.acquire_error ha
      · next owned claim fs₁ ha => cases owned <;> cases h

theorem hand?_fresh (hw : w.Fresh) : w.hand? = none := by simp [hand?, hw.position]

theorem parcels_fresh (hw : w.Fresh) : w.parcels = w.queue := parcels_of_no_hand (hand?_fresh hw)

theorem resumed_claim (s : SpillDir) (files : List Path) :
    (s.resumed files).claim = s.claim ∧ (s.resumed files).enabled = s.enabled := by
  unfold SpillDir.resumed
  split <;> exact ⟨rfl, rfl⟩

theorem recover_claim {s s' : SpillDir} {backlog : List (Envelope × Path)} (h : s.recover fs = (backlog, s', fs')) :
    s'.claim = s.claim ∧ s'.enabled = s.enabled := by
  unfold SpillDir.recover at h
  split at h
  · cases h; exact ⟨rfl, rfl⟩
  · next files hf =>
    have hr := resumed_claim s files
    cases h
    exact hr

theorem Started.lock (h : Started settings fs w fs') {dir : String} (hd : settings.cacheDir = some dir) :
    w.Housed ⟨dir⟩ ∧ fs'.denied = fs.denied ∧
      (∀ p, fs.files.isLocked p = true → fs'.files.isLocked p = true) ∧
      (w.owns = true → fs.files.isLocked (DirClaim.lockPath ⟨dir⟩) = false ∧
        fs'.files.isLocked (DirClaim.lockPath ⟨dir⟩) = true) := by
  have hps := parcels_fresh h.fresh
  cases h with
  | @owner dir' claim fs₁ backlog spill fs' hd' ha hr =>
    cases hd.symm.trans hd'
    obtain ⟨rfl, hl, hloc, -, hden⟩ := DirClaim.acquire_true ha
    have hs := recover_claim hr
    have hf := Storage.recover_frame hr
    have ho : ((ofSettings settings (.durable spill settings.retry)).withBacklog backlog).owns = true := by
      rw [withBacklog_eq]
      simp [owns, ofSettings, hs.1]
    refine ⟨⟨fun s retry hh => ?_, fun _ _ _ _ => .inl ho, fun _ _ _ => ho⟩, hf.denied.trans hden, fun p hp => ?_,
      fun _ => ⟨hl, ?_⟩⟩
    · rw [withBacklog_eq] at hh
      cases hh
      rw [hs.1]
      exact ⟨rfl, .inr rfl⟩
    · rw [hf.isLocked, MemoryFiles.isLocked, hloc, MemoryFiles.holds, List.any_append, Bool.or_eq_true]
      exact .inl hp
    · rw [hf.isLocked, MemoryFiles.isLocked, hloc, MemoryFiles.holds, List.any_append]
      simp [Path.same_refl]
  | @guest dir' claim fs' hd' ha =>
    cases hd.symm.trans hd'
    obtain ⟨rfl, hl, hloc, -, hden⟩ := DirClaim.acquire_false ha
    refine ⟨⟨fun s retry hh => ?_, fun s retry hh he => ?_, fun p hp => ?_⟩, hden, fun p hp => ?_, fun ho => ?_⟩
    · cases hh
      exact ⟨rfl, .inl rfl⟩
    · cases hh
      cases he
    · rw [hps] at hp
      cases hp
    · rw [MemoryFiles.isLocked, hloc]
      exact hp
    · cases ho

end Worker

/-! ## Desks -/

namespace Desk

variable {k k' : Desk} {d d' : Depot} {dir : Path}

theorem Change.housed (hc : k.Change d k' d') (hw : k.worker.Housed dir) (hs : k.worker.Sound) :
    k'.worker.Housed dir ∧ (k'.worker.owns = true → k.worker.owns = true) := by
  cases hc with
  | step hm => exact hm.shelving.housed hw (hm.not_stopped hs)
  | error hp e =>
    have hm := Worker.answered_move (d := d) hp e
    exact hm.shelving.housed hw (hm.not_stopped hs)
  | arrive hp => exact (Worker.arrive_shelving (d := d) hp).housed hw (hs.open (by simp [hp]))
  | resume hp => exact ⟨hw.same rfl id fun p hm _ => by simpa [Worker.parcels, Worker.hand?, hp] using hm, id⟩
  | @accept e =>
    refine ⟨hw.same rfl id fun p hm hg => ?_, id⟩
    rcases List.mem_append.mp (Worker.pushReserved_parcels e ▸ hm) with hm | hm
    · exact hm
    · cases List.mem_singleton.mp hm
      cases hg
  | refuse => exact ⟨hw, id⟩
  | polled waits hp => exact ⟨(hp.housed hw).1, fun h => (hp.housed hw).2 ▸ h⟩

theorem Change.locks (hc : k.Change d k' d') :
    d'.storage.denied = d.storage.denied ∧
      (d'.storage.files.locks = d.storage.files.locks ∨ k.worker.owns = true ∧ k'.worker.owns = false) := by
  cases hc with
  | step hm => exact hm.shelving.locks
  | error hp e => exact (Worker.answered_move (d := d) hp e).shelving.locks
  | arrive hp => exact (Worker.arrive_shelving (d := d) hp).locks
  | resume => exact ⟨rfl, .inl rfl⟩
  | accept => exact ⟨rfl, .inl rfl⟩
  | refuse e reason? hd => cases reason? <;> exact ⟨by rw [← hd.storage]; rfl, .inl (by rw [← hd.storage]; rfl)⟩
  | polled => exact ⟨rfl, .inl rfl⟩

end Desk

/-! ## Offices -/

namespace Office

/-- The workers are on one directory, and one of them at most owns it. -/
structure Locked (s : Office) (dir : Path) : Prop where
  allowed : s.depot.storage.denied = []
  sound : ∀ k ∈ s.desks, k.worker.Sound
  housed : ∀ k ∈ s.desks, k.worker.Housed dir
  held : ∀ k ∈ s.desks, k.worker.owns = true → s.depot.storage.files.isLocked (DirClaim.lockPath dir) = true
  single : ∀ (i j : Nat) (a b : Desk), s.desks[i]? = some a → s.desks[j]? = some b → a.worker.owns = true →
    b.worker.owns = true → i = j

/-- The workers that start keep envelopes in files, in this directory. -/
def On (dir : String) : Event → Prop
  | .start durable settings => durable = true ∧ settings.cacheDir = some dir
  | _ => True

variable {s t : Office} {dir : String}

theorem Locked.desk {i : Nat} {a : Act} (hl : s.Locked ⟨dir⟩) (h : s.after? (.desk i a) = some t) : t.Locked ⟨dir⟩ := by
  obtain ⟨k, k', hk, hc, hd, -⟩ := after?_desk h
  have hm := List.mem_of_getElem? hk
  obtain ⟨hh, ho⟩ := hc.housed (hl.housed k hm) (hl.sound k hm)
  obtain ⟨hden, hloc⟩ := hc.locks
  refine ⟨hden.trans hl.allowed, ?_, ?_, ?_, ?_⟩
  · rw [hd]
    exact forall_mem_set hl.sound (hc.sound (hl.sound k hm))
  · rw [hd]
    exact forall_mem_set hl.housed hh
  · intro b hb hob
    rw [hd] at hb
    obtain ⟨j, hj⟩ := List.getElem?_of_mem hb
    rcases hloc with hloc | ⟨hok, hok'⟩
    · rw [MemoryFiles.isLocked, hloc]
      rcases getElem?_set_cases hj with ⟨-, rfl⟩ | ⟨-, hj⟩
      · exact hl.held k hm (ho hob)
      · exact hl.held b (List.mem_of_getElem? hj) hob
    · rcases getElem?_set_cases hj with ⟨-, rfl⟩ | ⟨hij, hj⟩
      · rw [hok'] at hob
        cases hob
      · exact absurd (hl.single i j k b hk hj hok hob) hij
  · intro i' j' b c hb hc' hob hoc
    rw [hd] at hb hc'
    rcases getElem?_set_cases hb with ⟨rfl, rfl⟩ | ⟨hi, hb'⟩ <;>
      rcases getElem?_set_cases hc' with ⟨hj, rfl⟩ | ⟨hj, hc''⟩
    · exact hj
    · exact hl.single _ _ k c hk hc'' (ho hob) hoc
    · exact hj ▸ hl.single _ _ b k hb' hk hob (ho hoc)
    · exact hl.single _ _ b c hb' hc'' hob hoc

theorem Locked.same {depot : Depot} (hl : s.Locked ⟨dir⟩) (hden : depot.storage.denied = s.depot.storage.denied)
    (hloc : depot.storage.files.locks = s.depot.storage.files.locks) :
    ({ s with depot := depot } : Office).Locked ⟨dir⟩ :=
  ⟨hden.trans hl.allowed, hl.sound, hl.housed,
    fun k hm ho => by rw [MemoryFiles.isLocked, hloc]; exact hl.held k hm ho, hl.single⟩

/-- A desk that is opened keeps the office in order if its worker owns the directory only when nobody did. -/
theorem Locked.open {depot : Depot} {w : Worker} (hl : s.Locked ⟨dir⟩) (hw : w.Fresh) (hh : w.Housed ⟨dir⟩)
    (hden : depot.storage.denied = s.depot.storage.denied)
    (hk : ∀ p, s.depot.storage.files.isLocked p = true → depot.storage.files.isLocked p = true)
    (ho : w.owns = true → s.depot.storage.files.isLocked (DirClaim.lockPath ⟨dir⟩) = false ∧
      depot.storage.files.isLocked (DirClaim.lockPath ⟨dir⟩) = true) :
    ({ s with depot := depot, desks := s.desks ++ [.opened w] } : Office).Locked ⟨dir⟩ := by
  have hnone : w.owns = true → ∀ k ∈ s.desks, k.worker.owns = false := by
    intro h k hm
    rw [Bool.eq_false_iff]
    intro hok
    have := hl.held k hm hok
    rw [(ho h).1] at this
    cases this
  refine ⟨hden.trans hl.allowed, ?_, ?_, ?_, ?_⟩
  · exact List.forall_mem_append.mpr ⟨hl.sound, by simpa [Desk.opened] using hw.sound⟩
  · exact List.forall_mem_append.mpr ⟨hl.housed, by simpa [Desk.opened] using hh⟩
  · refine List.forall_mem_append.mpr ⟨fun k hm hok => hk _ (hl.held k hm hok), ?_⟩
    simpa [Desk.opened] using fun h => (ho h).2
  · intro i j a b ha hb hoa hob
    rcases getElem?_snoc_cases ha with ha | ⟨rfl, rfl⟩ <;> rcases getElem?_snoc_cases hb with hb | ⟨rfl, rfl⟩
    · exact hl.single i j a b ha hb hoa hob
    · exact absurd hoa (by simp [hnone hob a (List.mem_of_getElem? ha)])
    · exact absurd hob (by simp [hnone hoa b (List.mem_of_getElem? hb)])
    · rfl

theorem started_cases (s : Office) (settings : Settings) :
    (∃ e fs, Worker.startDurable settings s.depot.storage = (.error e, fs) ∧
        s.started true settings = { s with depot := { s.depot with storage := fs } }) ∨
      ∃ w fs, Worker.startDurable settings s.depot.storage = (.ok w, fs) ∧
        s.started true settings =
          { s with depot := { s.depot with storage := fs }, desks := s.desks ++ [.opened w] } := by
  rcases hw : Worker.startDurable settings s.depot.storage with ⟨e | w, fs⟩
  · exact .inl ⟨e, fs, rfl, by simp [started, hw]⟩
  · exact .inr ⟨w, fs, rfl, by simp [started, hw]⟩

theorem Locked.start {settings : Settings} (hl : s.Locked ⟨dir⟩) (ha : settings.cacheDir = some dir) :
    (s.started true settings).Locked ⟨dir⟩ := by
  rcases s.started_cases settings with ⟨e, fs, hw, hs⟩ | ⟨w, fs, hw, hs⟩
  · rw [hs]
    obtain ⟨hloc, -, hden⟩ := Worker.startDurable_error hw
    exact hl.same hden hloc
  · rw [hs]
    have hst := Worker.startDurable_started hw
    obtain ⟨hh, hden, hk, ho⟩ := hst.lock ha
    exact hl.open hst.fresh hh hden hk ho

/-- Whatever happens, one worker at most owns the directory. -/
theorem Locked.next {e : Event} (hl : s.Locked ⟨dir⟩) (ha : On dir e) (h : s.after? e = some t) : t.Locked ⟨dir⟩ := by
  cases e with
  | desk i a => exact hl.desk h
  | clock n => cases h; exact hl.same rfl rfl
  | failWrites on => cases h; exact hl.same rfl rfl
  | start durable settings =>
    obtain ⟨rfl, hd⟩ := ha
    cases h
    exact hl.start hd

end Office

end Courier

import Courier.Proofs.LockPath
import Courier.Proofs.Shelf

/-!
# One after another

Workers on one directory, each started when all others have stopped. The one that is alive has the directory, and
the files of the directory are those that its sheet tells of.
-/

namespace Courier

/-! ## Steps -/

namespace Worker

variable {w : Worker} {d : Depot}

theorem failed_clock (d : Depot) (out : Outbound) (e : SendError) : (d.failed out e).clock = d.clock := by
  unfold Depot.failed Depot.unload
  cases out.report <;> cases e <;> rfl

theorem load_clock (d : Depot) (b : Bool) (e : Envelope) : (d.load b e).2.clock = d.clock := by
  unfold Depot.load
  split
  · rcases d.ledger.report d.clock.now with ⟨_ | r, led⟩ <;> rfl
  · rfl

theorem settle_clock (d : Depot) (p : Parcel) (f : Fate) : (settle d p f).clock = d.clock := by
  cases f <;> rfl

theorem spill_clock (w : Worker) (d : Depot) (e : Envelope) : (w.spill d e).2.2.clock = d.clock := by
  unfold spill
  split <;> rfl

theorem forsake_clock (w : Worker) (d : Depot) (p : Parcel) : (w.forsake d p).2.2.clock = d.clock := by
  unfold forsake
  split
  · rfl
  · split
    · rfl
    · exact spill_clock w d p.envelope

theorem Move.clock {x : Stride} (hm : w.Move d x) : x.depot.clock = d.clock := by
  cases hm with
  | close => rfl
  | take => rfl
  | @begin p =>
    unfold Worker.begin
    split
    · rfl
    · exact spill_clock w d p.envelope
  | @hand p n out d' hp hl =>
    rw [show d' = (d.load w.reportLosses p.envelope).2 by rw [hl]]
    exact load_clock ..
  | @blank p n out d' hp hl =>
    rw [show d' = (d.load w.reportLosses p.envelope).2 by rw [hl]]
    exact (settle_clock ..).trans (load_clock ..)
  | pause => exact failed_clock ..
  | fail => exact (settle_clock ..).trans (failed_clock ..)
  | yield => exact settle_clock ..
  | @abandon p rest => exact (settle_clock ..).trans (forsake_clock ..)
  | stop =>
    unfold Worker.stop
    split <;> rfl

theorem Move.freed {x : Stride} (hm : w.Move d x) (hw : w.Sound) (h : x.worker.phase = .stopped) :
    x.worker.owns = false := by
  have hp := (hm.sound hw).stopped h
  cases hm with
  | close => cases hp
  | take => cases hp
  | @begin p =>
    obtain ⟨h, file, hb⟩ := begin_worker w d p
    rw [hb] at hp
    cases hp
  | hand => cases hp
  | blank => cases hp
  | pause => cases hp
  | fail => cases hp
  | yield => cases hp
  | @abandon p rest hc =>
    obtain ⟨h, hv⟩ := forsake_worker { w with queue := rest } d p
    rw [Worker.abandon, release_position, hv] at hp
    cases hc.symm.trans hp
  | stop =>
    unfold Worker.stop
    split
    · next ho => simp [owns, ho]
    · simp [owns, DirClaim.dispose]

theorem Shelving.owner {x : Stride} {dir : Path} (hx : w.Shelving d x) (hw : w.Housed dir) :
    (x.worker.owns = w.owns ∧ x.depot.storage.files.locks = d.storage.files.locks) ∨
      (x.worker.owns = false ∧ x.depot.storage.files.isLocked (DirClaim.lockPath dir) = false) := by
  cases hx with
  | stay _ _ hh hf => exact .inl ⟨owns_of_handling hh, by rw [hf]⟩
  | file _ _ hr => exact .inl ⟨put_owns hr, (Storage.put_frame hr).locks⟩
  | drop _ _ _ _ hh hd => exact .inl ⟨owns_of_handling hh, by rw [hd]; exact (Storage.remove_frame ..).locks⟩
  | keep _ _ _ _ hh hd => exact .inl ⟨owns_of_handling hh, by rw [hd]⟩
  | forsake _ _ hr => exact .inl ⟨put_owns hr, (Storage.put_frame hr).locks⟩
  | lose _ _ _ _ hh hd => exact .inl ⟨owns_of_handling hh, by rw [hd]⟩
  | @stop s retry _ ho _ _ _ hh hd =>
    have hfree : x.worker.owns = false := by
      cases hl : s.claim.lock <;> simp [owns, hh, DirClaim.dispose, hl]
    cases hl : s.claim.lock with
    | none => exact .inl ⟨hfree.trans (by simp [owns, ho, hl]), by rw [hd]; simp [DirClaim.dispose, hl]⟩
    | some l =>
      have hlock : l = DirClaim.lockPath dir := by
        have := (hw.claim s retry ho).2
        rw [hl] at this
        simpa using this
      refine .inr ⟨hfree, ?_⟩
      rw [hd]
      simp [DirClaim.dispose, hl, FileSystem.unlock, Storage.unlock, MemoryFiles.unlock, MemoryFiles.isLocked,
        MemoryFiles.holds, hlock]

/-! ## A start on a free directory -/

theorem startDurable_owner {settings : Settings} {dir : String} {fs : Storage} (hv : settings.validate = .ok ())
    (hd : settings.cacheDir = some dir) (ha : fs.denied = [])
    (hl : fs.files.isLocked (DirClaim.lockPath ⟨dir⟩) = false) :
    ∃ w fs', startDurable settings fs = (.ok w, fs') := by
  have hc : fs.createDirs ⟨dir⟩ = (.ok (), { fs with files := fs.files.createDirs ⟨dir⟩ }) := by
    simp [Storage.createDirs, Storage.refusal?, ha]
  have ht : ({ fs with files := fs.files.createDirs ⟨dir⟩ } : Storage).tryLock (DirClaim.lockPath ⟨dir⟩) =
      .ok (some (DirClaim.lockPath ⟨dir⟩, { fs with files := { fs.files.createDirs ⟨dir⟩ with
        locks := fs.files.locks ++ [DirClaim.lockPath ⟨dir⟩] } })) := by
    have hl' : (fs.files.createDirs ⟨dir⟩).isLocked (DirClaim.lockPath ⟨dir⟩) = false := hl
    simp only [Storage.tryLock, Storage.refusal?, ha, List.contains_nil, Bool.false_eq_true, ite_false,
      MemoryFiles.tryLock, DirClaim.parentMissing?_lockPath, hl']
    rfl
  simp only [startDurable, hv, hd, DirClaim.acquire, DirClaim.isAcquired, Option.isSome_none, Bool.false_eq_true,
    ite_false, FileSystem.createDirs, hc, FileSystem.tryLock, ht, ite_true]
  exact ⟨_, _, rfl⟩

theorem Started.owns {settings : Settings} {dir : String} {fs fs' : Storage} (h : Started settings fs w fs')
    (hd : settings.cacheDir = some dir) (hl : fs.files.isLocked (DirClaim.lockPath ⟨dir⟩) = false) : w.owns = true := by
  cases h with
  | owner hd' ha hr =>
    obtain ⟨rfl, -⟩ := DirClaim.acquire_true ha
    rw [withBacklog_eq]
    simp [Worker.owns, ofSettings, (recover_claim hr).1]
  | guest hd' ha =>
    cases hd.symm.trans hd'
    obtain ⟨-, hl', -⟩ := DirClaim.acquire_false ha
    rw [hl] at hl'
    cases hl'

end Worker

/-! ## Desks -/

namespace Desk

variable {k k' : Desk} {d d' : Depot} {dir : Path}

theorem Change.clock (hc : k.Change d k' d') : d'.clock = d.clock := by
  cases hc with
  | step hm => exact hm.clock
  | error hp e => exact (Worker.answered_move hp e).clock
  | arrive => exact Worker.settle_clock ..
  | resume => rfl
  | accept => rfl
  | refuse e reason? hd => cases reason? <;> exact hd.clock
  | polled => rfl

theorem Change.owner (hc : k.Change d k' d') (hw : k.worker.Housed dir) :
    (k'.worker.owns = k.worker.owns ∧ d'.storage.files.locks = d.storage.files.locks) ∨
      (k'.worker.owns = false ∧ d'.storage.files.isLocked (DirClaim.lockPath dir) = false) := by
  cases hc with
  | step hm => exact hm.shelving.owner hw
  | error hp e => exact (Worker.answered_move hp e).shelving.owner hw
  | arrive hp => exact (Worker.arrive_shelving hp).owner hw
  | resume => exact .inl ⟨rfl, rfl⟩
  | accept => exact .inl ⟨rfl, rfl⟩
  | refuse e reason? hd => cases reason? <;> exact .inl ⟨rfl, by rw [← hd.storage]; rfl⟩
  | polled waits hp => exact .inl ⟨(hp.housed hw).2, rfl⟩

theorem Change.freed (hc : k.Change d k' d') (hs : k.worker.Sound)
    (hf : k.worker.phase = .stopped → k.worker.owns = false) (h : k'.worker.phase = .stopped) :
    k'.worker.owns = false := by
  cases hc with
  | step hm => exact hm.freed hs h
  | error hp e => exact (Worker.answered_move hp e).freed hs h
  | arrive hp =>
    have := (Worker.Sound.conclude (d := d) hs (by simp [hp]) .delivered).stopped h
    cases this
  | resume hp => exact absurd h (hs.open (by simp [hp]))
  | accept hr => exact absurd (hr.symm.trans h) nofun
  | refuse => exact hf h
  | polled waits hp =>
    cases hp with
    | same => exact hf h
    | report => exact hf h
    | begun => cases h
    | ended => cases h
    | aborted => exact hf h

/-- What stays as it is at a desk whose worker has stopped. -/
structure Closed (k k' : Desk) (d d' : Depot) : Prop where
  phase : k'.worker.phase = .stopped
  handling : k'.worker.handling = k.worker.handling
  settled : k'.settled = k.settled
  accepted : k'.accepted = k.accepted
  storage : d'.storage = d.storage

theorem Change.closed (hc : k.Change d k' d') (hs : k.worker.Sound) (h : k.worker.phase = .stopped) :
    k.Closed k' d d' := by
  have hp := hs.stopped h
  cases hc with
  | step hm => exact absurd h (hm.not_stopped hs)
  | error hp' => rw [hp] at hp'; cases hp'
  | arrive hp' => rw [hp] at hp'; cases hp'
  | resume hp' => rw [hp] at hp'; cases hp'
  | accept hr => rw [h] at hr; cases hr
  | refuse e reason? hd => exact ⟨h, rfl, rfl, rfl, by cases reason? <;> exact hd.storage⟩
  | polled waits hw =>
    cases hw with
    | same => exact ⟨h, rfl, rfl, rfl, rfl⟩
    | report hc => simp [Worker.isClosed, hp] at hc
    | begun hr => rw [h] at hr; cases hr
    | ended hr => rw [h] at hr; cases hr
    | aborted => exact ⟨h, rfl, rfl, rfl, rfl⟩

end Desk

end Courier

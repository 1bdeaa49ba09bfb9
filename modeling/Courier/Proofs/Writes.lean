import Courier.Proofs.Recover

/-!
# What is written

A worker hands a file to the storage only when it takes up a parcel or gives one away that has no file yet. What else
happens at a desk takes files away at most.
-/

namespace Courier

namespace SpillDir

variable {s : SpillDir} {fs : Storage} {now : Timestamp} {e : Envelope}

/-- The file that `write` hands to the storage. -/
def target? (s : SpillDir) (fs : Storage) (now : Timestamp) (e : Envelope) : Option Path :=
  if !s.enabled || e.isEmpty then none
  else
    match fs.list s.dir extension with
    | .error _ => none
    | .ok files => if s.capacity.toNat ≤ files.length then none else some (s.dir.join (fileName now s.sequence))

theorem write_of_no_target (h : s.target? fs now e = none) :
    (s.write fs now e).1.file? = none ∧ (s.write fs now e).2 = (s, fs) := by
  unfold target? at h
  unfold write
  cases hb : (!s.enabled || e.isEmpty) with
  | true => exact ⟨rfl, rfl⟩
  | false =>
    simp only [hb, Bool.false_eq_true, ite_false] at h ⊢
    cases hl : fs.list s.dir extension with
    | error er => exact ⟨rfl, rfl⟩
    | ok files =>
      simp only [hl] at h ⊢
      by_cases hc : s.capacity.toNat ≤ files.length
      · simp [hc, Spilled.file?]
      · simp [hc] at h

theorem write_of_target {g : Path} (h : s.target? fs now e = some g) :
    (s.write fs now e).2 = ((s.nextFile now).2, (fs.write g e.toBytes).2) ∧
      ((s.write fs now e).1.file? = none → ∃ er, (fs.write g e.toBytes).1 = .error er) := by
  unfold target? at h
  unfold write
  cases hb : (!s.enabled || e.isEmpty) with
  | true => simp [hb] at h
  | false =>
    simp only [hb, Bool.false_eq_true, ite_false] at h ⊢
    cases hl : fs.list s.dir extension with
    | error er => simp [hl] at h
    | ok files =>
      simp only [hl] at h ⊢
      by_cases hc : s.capacity.toNat ≤ files.length
      · simp [hc] at h
      · simp only [hc, ite_false, Option.some.injEq] at h ⊢
        subst h
        simp only [nextFile]
        rcases hw : fs.write (s.dir.join (fileName now s.sequence)) e.toBytes with ⟨er | u, fs'⟩
        · exact ⟨rfl, fun _ => ⟨er, rfl⟩⟩
        · exact ⟨rfl, fun hf => absurd hf (Option.some_ne_none _)⟩

theorem target?_eq_some {g : Path} (h : s.target? fs now e = some g) :
    g = s.dir.join (fileName now s.sequence) ∧ s.enabled = true ∧ e.isEmpty = false ∧
      ∃ files, fs.list s.dir extension = .ok files ∧ files.length < s.capacity.toNat := by
  unfold target? at h
  split at h
  · cases h
  · next hb =>
    simp only [Bool.or_eq_true, Bool.not_eq_true', not_or, Bool.not_eq_false, Bool.not_eq_true] at hb
    split at h
    · cases h
    · next files hl =>
      split at h
      · cases h
      · next hc => cases h; exact ⟨rfl, hb.1, hb.2, files, hl, by omega⟩

end SpillDir

namespace Worker

variable {w : Worker} {d : Depot} {p : Parcel}

def spilling? (w : Worker) : Option Parcel :=
  (match w.position with
    | .taken p => some p
    | .closing => w.queue.head?
    | _ => none).filter (·.file.isNone)

/-- The file that the next step hands to the storage. -/
def target? (w : Worker) (d : Depot) : Option Path :=
  w.spillDir?.bind fun s => w.spilling?.bind fun p => s.target? d.storage d.clock.now p.envelope

/-- What becomes of the files in a move: some go, or the target is handed to the storage. -/
inductive Writes (w : Worker) (d : Depot) (fs : Storage) : Prop
  | nothing (ht : w.target? d = none) (hs : fs.files.files.Sublist d.storage.files.files)
  | target {p g} (hp : w.spilling? = some p) (ht : w.target? d = some g)
    (hs : fs = (d.storage.write g p.envelope.toBytes).2)

theorem Writes.same {fs : Storage} (ht : w.target? d = none) (hs : fs.files.files = d.storage.files.files) :
    w.Writes d fs :=
  .nothing ht (hs ▸ .refl _)

theorem spill_writes (h : w.spilling? = some p) : w.Writes d (w.spill d p.envelope).2.2.storage := by
  unfold spill
  cases hh : w.handling with
  | once => exact .nothing (by simp [target?, spillDir?, hh]) (.refl _)
  | durable s retry =>
    have htarget : w.target? d = s.target? d.storage d.clock.now p.envelope := by
      simp only [target?, spillDir?, hh, h, Option.bind_some]
    cases ht : s.target? d.storage d.clock.now p.envelope with
    | none =>
      refine .nothing (htarget.trans ht) ?_
      simp only [(SpillDir.write_of_no_target ht).2]
      exact .refl _
    | some g => exact .target h (htarget.trans ht) (congrArg Prod.snd (SpillDir.write_of_target ht).1)

theorem target?_eq_some {g : Path} (h : w.target? d = some g) :
    ∃ s retry p, w.handling = .durable s retry ∧ w.spilling? = some p ∧
      s.target? d.storage d.clock.now p.envelope = some g := by
  unfold target? spillDir? at h
  cases hh : w.handling with
  | once => simp [hh] at h
  | durable s retry =>
    simp only [hh, Option.bind_some] at h
    obtain ⟨p, hp, h⟩ := Option.bind_eq_some_iff.mp h
    exact ⟨s, retry, p, rfl, hp, h⟩

theorem Housed.target?_eq {dir g : Path} (hw : w.Housed dir) (h : w.target? d = some g) :
    g = dir.join (SpillDir.fileName d.clock.now w.sequence) := by
  obtain ⟨s, retry, p, hh, -, ht⟩ := Worker.target?_eq_some h
  rw [(SpillDir.target?_eq_some ht).1, show s.dir = dir from (hw.claim s retry hh).1]
  simp [sequence, spillDir?, hh]

theorem target?_none (h : w.spilling? = none) (d : Depot) : w.target? d = none := by
  unfold target?
  cases w.spillDir? with
  | none => rfl
  | some s => simp only [h, Option.bind_some, Option.bind_none]

/-! ## Files that go -/

theorem remove_sublist (fs : Storage) (file : Option Path) :
    (SpillDir.remove fs file).files.files.Sublist fs.files.files := by
  cases file with
  | none => exact .refl _
  | some g =>
    simp only [SpillDir.remove, Storage.remove]
    cases fs.refusal? .remove with
    | none => exact List.filter_sublist
    | some er => exact .refl _

theorem settle_sublist (d : Depot) (p : Parcel) (f : Fate) :
    (settle d p f).storage.files.files.Sublist d.storage.files.files := by
  cases f with
  | delivered => exact remove_sublist ..
  | failed e => exact remove_sublist ..
  | abandoned reason => exact .refl _
  | kept g => exact .refl _

theorem begin_writes (hp : w.position = .taken p) : w.Writes d (w.begin d p).depot.storage := by
  cases hf : p.file with
  | some g =>
    simp only [begin, hf]
    exact .nothing (target?_none (by simp [spilling?, hp, hf]) d) (.refl _)
  | none =>
    simp only [begin, hf]
    exact spill_writes (by simp [spilling?, hp, hf])

theorem abandon_writes {rest : List Parcel} (hp : w.position = .closing) (hq : w.queue = p :: rest) :
    w.Writes d ({ w with queue := rest }.abandon d p).depot.storage := by
  cases hh : w.handling with
  | once =>
    refine .nothing (by simp [target?, spillDir?, hh]) ?_
    simp only [abandon, forsake]
    exact settle_sublist ..
  | durable s retry =>
    cases hf : p.file with
    | some g =>
      refine .nothing (target?_none (by simp [spilling?, hp, hq, hf]) d) ?_
      simp only [abandon, forsake, hf]
      exact settle_sublist ..
    | none =>
      have hs : w.Writes d (w.spill d p.envelope).2.2.storage := spill_writes (by simp [spilling?, hp, hq, hf])
      simp only [abandon, forsake, hf, settle_fate_storage]
      simp only [spill, hh] at hs ⊢
      exact hs

/-- A move takes files away at most, or hands its target to the storage. -/
theorem Move.writes {x : Stride} (hm : w.Move d x) : w.Writes d x.depot.storage := by
  cases hm with
  | close hp => exact .nothing (target?_none (by simp [spilling?, hp]) d) (.refl _)
  | take hp => exact .nothing (target?_none (by simp [spilling?, hp]) d) (.refl _)
  | begin hp => exact begin_writes hp
  | @hand p n out d' hp hl =>
    have hs : d'.storage = d.storage := by simpa only [hl] using load_storage d w.reportLosses p.envelope
    exact .same (target?_none (by simp [spilling?, hp]) d) (by rw [hs])
  | @blank p n out d' hp hl =>
    have hs : d'.storage = d.storage := by simpa only [hl] using load_storage d w.reportLosses p.envelope
    exact .nothing (target?_none (by simp [spilling?, hp]) d) (hs ▸ settle_sublist ..)
  | pause hp => exact .same (target?_none (by simp [spilling?, hp]) d) (by rw [failed_storage])
  | @fail p n out e f hp hv =>
    have hs := failed_storage d out e
    exact .nothing (target?_none (by simp [spilling?, hp]) d) (hs ▸ settle_sublist ..)
  | yield hy =>
    refine .nothing (target?_none ?_ d) (settle_sublist ..)
    cases hy with
    | due hp => simp [spilling?, hp]
    | pausing hp => simp [spilling?, hp]
  | abandon hp hq => exact abandon_writes hp hq
  | stop hp hq =>
    refine .same (target?_none (by simp [spilling?, hp, hq]) d) ?_
    unfold Worker.stop
    split
    · rfl
    · next s retry hh => rw [(Storage.dispose_files s.claim d.storage).1]

end Worker

namespace Desk

variable {k k' : Desk} {d d' : Depot}

/-- Only a worker that goes on hands a file to the storage, and that is its target. -/
theorem Change.writes (hc : k.Change d k' d') :
    k.worker.Writes d d'.storage ∨ d'.storage.files.files.Sublist d.storage.files.files := by
  cases hc with
  | step hm => exact .inl hm.writes
  | error hp e => exact .inl (Worker.answered_move hp e).writes
  | arrive hp => exact .inr (Worker.settle_sublist ..)
  | resume => exact .inr (.refl _)
  | accept => exact .inr (.refl _)
  | refuse e reason? hd =>
    refine .inr ?_
    rw [← hd.storage]
    cases reason? <;> exact .refl _
  | polled => exact .inr (.refl _)

end Desk

end Courier

import Courier.Proofs.Order
import Courier.Proofs.Queue

/-!
# What a worker does to its files

An envelope may get a file when its turn comes or when it is given away, and loses it when it is delivered or
lost for good. Nothing else touches the files, but for a worker that stops, which frees its lock.
-/

namespace Courier

/-! ## Putting an envelope into a file -/

def Storage.holding (fs : Storage) (file : Path) (data : Bytes) : Storage :=
  { fs with files := { fs.files with files := MemoryFiles.insert file data fs.files.files } }

theorem Storage.write_ok {fs fs' : Storage} {file : Path} {data : Bytes} (h : fs.write file data = (.ok (), fs')) :
    fs' = fs.holding file data := by
  unfold Storage.write at h
  split at h
  · cases h
  · next files hf =>
    rw [MemoryFiles.write_eq_ok hf] at h
    cases h
    rfl

theorem Storage.write_error {fs fs' : Storage} {file : Path} {data : Bytes} {e : IoError}
    (h : fs.write file data = (.error e, fs')) : fs' = fs := by
  unfold Storage.write at h
  split at h <;> cases h
  rfl

/-- What comes of putting an envelope into a file: the outcome, the handling then, and the storage. -/
inductive Handling.Put (h : Handling) (fs : Storage) (now : Timestamp) (e : Envelope) :
    Spilled → Handling → Storage → Prop
  | refused {r} (hr : r.file? = none) : Put h fs now e r h fs
  | wasted {s retry} (hh : h = .durable s retry) (he : s.enabled = true) :
    Put h fs now e .failed (.durable (s.nextFile now).2 retry) fs
  | written {s retry} (hh : h = .durable s retry) (he : s.enabled = true) (hn : e.isEmpty = false) :
    Put h fs now e (.written (s.nextFile now).1) (.durable (s.nextFile now).2 retry)
      (fs.holding (s.nextFile now).1 e.toBytes)

theorem Spilled.eq_written {r : Spilled} {g : Path} (h : r.file? = some g) : r = .written g := by
  cases r <;> cases h
  rfl

theorem Spilled.fate_of_no_file {r : Spilled} (h : r.file? = none) : ∃ reason, r.fate = .abandoned reason := by
  cases r with
  | written file => cases h
  | disabled => exact ⟨_, rfl⟩
  | full => exact ⟨_, rfl⟩
  | failed => exact ⟨_, rfl⟩

theorem SpillDir.write_put (s : SpillDir) (retry : RetryPolicy) (fs : Storage) (now : Timestamp) (e : Envelope) :
    (Handling.durable s retry).Put fs now e (s.write fs now e).1 (.durable (s.write fs now e).2.1 retry)
      (s.write fs now e).2.2 := by
  unfold SpillDir.write
  split
  · exact .refused rfl
  · next hb =>
    simp only [Bool.or_eq_true, Bool.not_eq_true', not_or, Bool.not_eq_false, Bool.not_eq_true] at hb
    split
    · exact .refused rfl
    · split
      · exact .refused rfl
      · rcases hw : fs.write (s.nextFile now).1 e.toBytes with ⟨er | u, fs'⟩
        · rw [Storage.write_error hw] at hw
          simp only [hw]
          exact .wasted rfl hb.1
        · rw [Storage.write_ok hw] at hw
          simp only [hw]
          exact .written rfl hb.1 hb.2

namespace Worker

variable {w : Worker} {d : Depot} {p : Parcel}

theorem spill_put (w : Worker) (d : Depot) (e : Envelope) :
    w.handling.Put d.storage d.clock.now e (w.spill d e).1 (w.spill d e).2.1.handling (w.spill d e).2.2.storage := by
  unfold spill
  split
  · next ho => rw [ho]; exact .refused rfl
  · next s retry hh =>
    rw [hh]
    exact SpillDir.write_put s retry d.storage d.clock.now e

/-! ## Strides and files -/

/-- What a stride does to the parcels that are not done with, and to the files. -/
inductive Shelving (w : Worker) (d : Depot) (x : Stride) : Prop
  | stay (hs : x.settled = none) (hp : x.worker.parcels = w.parcels) (hh : x.worker.handling = w.handling)
    (hf : x.depot.storage = d.storage)
  | file {p rest r} (hp : w.parcels = p :: rest) (hn : p.file = none)
    (hr : w.handling.Put d.storage d.clock.now p.envelope r x.worker.handling x.depot.storage)
    (hs : x.settled = none) (hp' : x.worker.parcels = { p with file := r.file? } :: rest)
  | drop {p rest f} (hp : w.parcels = p :: rest) (hf : f = .delivered ∨ ∃ e, f = .failed e)
    (hs : x.settled = some (p, f)) (hp' : x.worker.parcels = rest) (hh : x.worker.handling = w.handling)
    (hd : x.depot.storage = SpillDir.remove d.storage p.file)
  | keep {p rest g} (hp : w.parcels = p :: rest) (hg : p.file = some g) (hs : x.settled = some (p, .kept g))
    (hp' : x.worker.parcels = rest) (hh : x.worker.handling = w.handling) (hd : x.depot.storage = d.storage)
  | forsake {p rest r} (hp : w.parcels = p :: rest) (hn : p.file = none)
    (hr : w.handling.Put d.storage d.clock.now p.envelope r x.worker.handling x.depot.storage)
    (hs : x.settled = some (p, r.fate)) (hp' : x.worker.parcels = rest)
  | lose {p rest} (hp : w.parcels = p :: rest) (ho : w.handling = .once)
    (hs : x.settled = some (p, .abandoned .sendError)) (hp' : x.worker.parcels = rest)
    (hh : x.worker.handling = w.handling) (hd : x.depot.storage = d.storage)
  | stop {s retry} (hp : w.parcels = []) (ho : w.handling = .durable s retry) (hs : x.settled = none)
    (hp' : x.worker.parcels = []) (hq : x.worker.phase = .stopped)
    (hh : x.worker.handling = .durable { s with claim := (s.claim.dispose d.storage).1 } retry)
    (hd : x.depot.storage = (s.claim.dispose d.storage).2)

theorem settle_storage {f : Fate} (hf : f = .delivered ∨ ∃ e, f = .failed e) (d : Depot) (p : Parcel) :
    (settle d p f).storage = SpillDir.remove d.storage p.file := by
  rcases hf with rfl | ⟨e, rfl⟩ <;> rfl

theorem conclude_drop {rest : List Parcel} {f : Fate} (hp : w.parcels = p :: rest) (hq : w.queue = rest)
    (hf : f = .delivered ∨ ∃ e, f = .failed e) {d d' : Depot} (hd : d'.storage = d.storage) :
    w.Shelving d (w.conclude d' p f) :=
  .drop hp hf rfl ((conclude_parcels f).trans hq) release_handling (by rw [← hd]; exact settle_storage hf d' p)

theorem conclude_shelving {f : Fate} (hp : w.hand? = some p) (hf : f = .delivered ∨ (∃ e, f = .failed e) ∨
    ∃ g, p.file = some g ∧ f = .kept g) {d d' : Depot} (hd : d'.storage = d.storage) :
    w.Shelving d (w.conclude d' p f) := by
  have hps := parcels_of_hand hp
  rcases hf with hf | hf | ⟨g, hg, rfl⟩
  · exact conclude_drop hps rfl (.inl hf) hd
  · exact conclude_drop hps rfl (.inr hf) hd
  · exact .keep hps hg rfl (conclude_parcels _) release_handling hd

theorem arrive_shelving {n : UInt32} {out : Outbound} (hp : w.position = .sending p n out) :
    w.Shelving d (w.conclude d p .delivered) :=
  conclude_shelving (by simp [hand?, hp]) (.inl rfl) rfl

theorem Yields.fate {f : Fate} (hy : w.Yields p f) : (∃ e, f = .failed e) ∨ ∃ g, p.file = some g ∧ f = .kept g := by
  cases hy with
  | due hp hv => exact (Handling.verdict?_cases hv).imp_left fun h => ⟨_, h⟩
  | pausing hp => exact p.interrupted_cases.imp_left fun h => ⟨_, h⟩

theorem load_storage (d : Depot) (b : Bool) (e : Envelope) : (d.load b e).2.storage = d.storage := by
  unfold Depot.load
  split
  · rcases d.ledger.report d.clock.now with ⟨_ | r, led⟩ <;> rfl
  · rfl

theorem failed_storage (d : Depot) (o : Outbound) (e : SendError) : (d.failed o e).storage = d.storage := by
  unfold Depot.failed Depot.unload
  cases o.report <;> cases e <;> rfl

theorem begin_shelving (hp : w.hand? = some p) {d : Depot} : w.Shelving d (w.begin d p) := by
  have hps := parcels_of_hand hp
  cases hf : p.file with
  | some g =>
    have hb : w.begin d p = ⟨{ w with position := .due p 1 }, d, none⟩ := by simp only [begin, hf]
    rw [hb]
    exact .stay rfl (by rw [hps, parcels_of_hand rfl]) rfl rfl
  | none =>
    have hb : w.begin d p = ⟨{ (w.spill d p.envelope).2.1 with
        position := .due { p with file := (w.spill d p.envelope).1.file? } 1 }, (w.spill d p.envelope).2.2, none⟩ := by
      simp only [begin, hf]
    obtain ⟨h, hw⟩ := spill_worker w d p.envelope
    refine .file hps hf (r := (w.spill d p.envelope).1) ?_ begin_settled ?_
    · rw [hb]
      exact spill_put w d p.envelope
    · rw [hb, parcels_of_hand rfl, hw]

theorem settle_fate_storage (d : Depot) (p : Parcel) (r : Spilled) : (settle d p r.fate).storage = d.storage := by
  cases r <;> rfl

theorem abandon_shelving {v : Worker} (hp : v.position = .closing) (hps : w.parcels = p :: v.queue)
    (hv : v.handling = w.handling) : w.Shelving d (v.abandon d p) := by
  have hr : (v.abandon d p).worker.parcels = v.queue := abandon_parcels hp
  cases ho : v.handling with
  | once =>
    have hf : v.forsake d p = (.abandoned .sendError, v, d) := by simp only [forsake, ho]
    refine .lose hps (hv.symm.trans ho) ?_ hr ?_ ?_
    · rw [abandon_settled, hf]
    · rw [abandon, hf]; exact release_handling.trans hv
    · rw [abandon, hf]; rfl
  | durable s retry =>
    cases hg : p.file with
    | some g =>
      have hf : v.forsake d p = (.kept g, v, d) := by simp only [forsake, ho, hg]
      refine .keep hps hg ?_ hr ?_ ?_
      · rw [abandon_settled, hf]
      · rw [abandon, hf]; exact release_handling.trans hv
      · rw [abandon, hf]; rfl
    | none =>
      have hf : v.forsake d p = ((v.spill d p.envelope).1.fate, (v.spill d p.envelope).2) := by
        simp only [forsake, ho, hg]
      have hx : v.abandon d p = ⟨(v.spill d p.envelope).2.1.release p,
          settle (v.spill d p.envelope).2.2 p (v.spill d p.envelope).1.fate,
          some (p, (v.spill d p.envelope).1.fate)⟩ := by
        rw [abandon, hf]
      refine .forsake hps hg (r := (v.spill d p.envelope).1) ?_ (by rw [hx]) hr
      rw [hx, ← hv]
      simp only [release_handling, settle_fate_storage]
      exact spill_put v d p.envelope

theorem Move.shelving {x : Stride} (hm : w.Move d x) : w.Shelving d x := by
  cases hm with
  | close hp => exact .stay rfl (by simp [parcels, hand?, hp]) rfl rfl
  | take hp hq => exact .stay rfl (by simp [parcels, hand?, hp, hq]) rfl rfl
  | begin hp => exact begin_shelving (by simp [hand?, hp])
  | @hand p n out d' hp hl hn =>
    refine .stay rfl (by simp [parcels, hand?, hp]) rfl ?_
    rw [show d' = (d.load w.reportLosses p.envelope).2 by rw [hl]]
    exact load_storage ..
  | @blank p n out d' hp hl hn =>
    refine conclude_shelving (by simp [hand?, hp]) (.inl rfl) ?_
    rw [show d' = (d.load w.reportLosses p.envelope).2 by rw [hl]]
    exact load_storage ..
  | pause hp hv => exact .stay rfl (by simp [parcels, hand?, hp]) rfl (failed_storage ..)
  | fail hp hv =>
    exact conclude_shelving (by simp [hand?, hp]) (.inr ((Handling.verdict?_cases hv).imp_left fun h => ⟨_, h⟩))
      (failed_storage ..)
  | yield hy => exact conclude_shelving hy.hand? (.inr hy.fate) rfl
  | @abandon p rest hp hq =>
    have hps : w.parcels = p :: rest := by rw [parcels_of_no_hand (by simp [hand?, hp]), hq]
    exact abandon_shelving (v := { w with queue := rest }) hp hps rfl
  | stop hp hq =>
    have hps : w.parcels = [] := by rw [parcels_of_no_hand (by simp [hand?, hp]), hq]
    cases ho : w.handling with
    | once =>
      refine .stay stop_settled ((stop_parcels hq).trans hps.symm) ?_ ?_
      · simp only [Worker.stop, ho]
      · simp only [Worker.stop, ho]
    | durable s retry =>
      have hx := stop_parcels (d := d) hq
      refine .stop hps ho stop_settled hx ?_ ?_ ?_ <;> simp only [Worker.stop, ho]

end Worker

end Courier

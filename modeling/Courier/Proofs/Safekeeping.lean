import Courier.Proofs.Conserve
import Courier.Proofs.Journal
import Courier.Proofs.NewName
import Mathlib.Data.List.Induction

/-!
# Kept until done with

A worker that keeps envelopes in files puts each one into a file before the transport gets it, unless there is no
room or the storage does not take it. The file stays as it is until the envelope has arrived or is not sent again,
and there are never more files than there may be.
-/

namespace Courier

/-! ## The end of an envelope -/

namespace Worker

variable {w : Worker} {d : Depot} {p : Parcel} {f : Fate} {s : SpillDir} {retry : RetryPolicy} {x : Stride}

/-- What the transport has is done with: it has arrived, or no other send follows. -/
inductive Resolves (w : Worker) (p : Parcel) : Fate → Prop
  | arrived {n out} (hp : w.position = .sending p n out) : Resolves w p .delivered
  | dropped {n out e} (hp : w.position = .sending p n out) (hv : w.handling.verdict? p n e = some (.failed e))
    (hc : e ≠ .cancelled) : Resolves w p (.failed e)

theorem interrupted_of_file (hg : p.file.isSome = true) : ∃ g, p.interrupted = .kept g := by
  obtain ⟨g, hg⟩ := Option.isSome_iff_exists.mp hg
  exact ⟨g, by simp [Parcel.interrupted, hg]⟩

theorem kept_of_cancelled {n : UInt32} (hh : w.handling = .durable s retry) (hg : p.file.isSome = true)
    (hv : w.handling.verdict? p n .cancelled = some f) : ∃ g, f = .kept g := by
  obtain ⟨g, hi⟩ := interrupted_of_file hg
  simp only [hh, Handling.verdict?, hi, Option.some.injEq] at hv
  exact ⟨g, hv.symm⟩

/-- An envelope in a file that arrives or is lost was with the transport. -/
theorem Move.resolves (hm : w.Move d x) (hh : w.handling = .durable s retry) (hx : x.settled = some (p, f))
    (hf : f = .delivered ∨ ∃ e, f = .failed e) (hg : p.file.isSome = true) (hn : p.filled = true) :
    w.Resolves p f := by
  -- what is cut short keeps its file, so that only a failed send is left
  have hkept : ∀ g, f ≠ .kept g := by
    intro g hk
    rcases hf with hf | ⟨e, hf⟩ <;> cases hk.symm.trans hf
  cases hm with
  | close => cases hx
  | take => cases hx
  | begin => cases begin_settled.symm.trans hx
  | hand => cases hx
  | @blank q n out d' hp hl hb =>
    cases hx
    have he := (Depot.load_blank (d := d) (b := w.reportLosses) (e := p.envelope) (by rw [hl]; exact hb)).1
    simp [Parcel.filled, he] at hn
  | pause => cases hx
  | @fail q n out e f' hp hv =>
    cases hx
    rcases Handling.verdict?_cases hv with rfl | ⟨g, -, rfl⟩
    · refine .dropped hp hv ?_
      rintro rfl
      obtain ⟨g, hk⟩ := kept_of_cancelled hh hg hv
      cases hk
    · exact absurd rfl (hkept g)
  | yield hy =>
    cases hx
    cases hy with
    | due hp hv =>
      obtain ⟨g, hk⟩ := kept_of_cancelled hh hg hv
      exact absurd hk (hkept g)
    | pausing hp =>
      obtain ⟨g, hk⟩ := interrupted_of_file hg
      exact absurd hk (hkept g)
  | abandon hp hq =>
    obtain ⟨g, hg⟩ := Option.isSome_iff_exists.mp hg
    have hx' := abandon_settled.symm.trans hx
    simp only [Option.some.injEq, Prod.mk.injEq] at hx'
    obtain ⟨rfl, rfl⟩ := hx'
    exact absurd (by simp [forsake, hh, hg]) (hkept g)
  | stop => cases stop_settled.symm.trans hx

end Worker

/-! ## Files at a desk -/

/-- Envelopes are put into files, and there may be so many. -/
def Handling.Spills (h : Handling) (room : UInt64) : Prop :=
  ∃ s retry, h = .durable s retry ∧ s.enabled = true ∧ s.capacity = room

theorem Handling.Put.spills {h h' : Handling} {fs fs' : Storage} {now : Timestamp} {e : Envelope} {r : Spilled}
    {room : UInt64} (hr : h.Put fs now e r h' fs') (hs : h.Spills room) : h'.Spills room := by
  obtain ⟨s, retry, rfl, he, hc⟩ := hs
  cases hr with
  | refused => exact ⟨s, retry, rfl, he, hc⟩
  | wasted hh =>
    cases hh
    exact ⟨_, _, rfl, he, hc⟩
  | written hh =>
    cases hh
    exact ⟨_, _, rfl, he, hc⟩

namespace Desk

variable {k k' : Desk} {d d' : Depot} {dir : Path} {room : UInt64} {p : Parcel} {rest : List Parcel} {f : Fate}

theorem Shift.spills (h : k.Shift d k' d') (hs : k.worker.handling.Spills room) : k'.worker.handling.Spills room := by
  cases h with
  | work hx hv =>
    rw [hv]
    cases hx with
    | stay _ _ hh => rwa [hh]
    | file _ _ hr => exact hr.spills hs
    | drop _ _ _ _ hh => rwa [hh]
    | keep _ _ _ _ hh => rwa [hh]
    | forsake _ _ hr => exact hr.spills hs
    | lose _ _ _ _ hh => rwa [hh]
    | stop _ ho _ _ _ hh =>
      obtain ⟨s, retry, hd, he, hc⟩ := hs
      cases ho.symm.trans hd
      exact ⟨_, _, hh, he, hc⟩
  | rest _ hh => rwa [hh]
  | accept _ _ hh => rwa [hh]

theorem Change.resolves (hc : k.Change d k' d') (hs : k.worker.handling.Spills room)
    (hset : k'.settled = k.settled ++ [(p, f)]) (hf : f = .delivered ∨ ∃ e, f = .failed e)
    (hg : p.file.isSome = true) (hn : p.filled = true) : k.worker.Resolves p f := by
  obtain ⟨s, retry, hh, -⟩ := hs
  have hsome {y : Option (Parcel × Fate)} (h : k.settled ++ y.toList = k.settled ++ [(p, f)]) : y = some (p, f) := by
    have hy := List.append_cancel_left h
    cases y with
    | none => cases hy
    | some y => simpa using hy
  cases hc with
  | step hm => exact hm.resolves hh (hsome hset) hf hg hn
  | error hp e => exact (Worker.answered_move hp e).resolves hh (hsome hset) hf hg hn
  | arrive hp =>
    cases hsome hset
    exact .arrived hp
  | resume => simp at hset
  | accept => simp at hset
  | refuse => simp at hset
  | polled => simp at hset

/-- The name that comes next in a directory is nobody's. -/
def NextNew (k : Desk) (d : Depot) (dir : Path) : Prop :=
  ∀ x ∈ d.storage.files.files, x.1.same (dir.join (SpillDir.fileName d.clock.now k.worker.sequence)) = false

/-- What a worker has in hand may stand in a file, as it was accepted, and what waits stands in none. -/
structure Safe (k : Desk) (fs : Storage) : Prop where
  waiting : k.worker.parcels.Pairwise fun _ p => p.file = none
  formed : ∀ p ∈ k.worker.parcels, p.filled = true → p.envelope.Formed
  stored : ∀ p ∈ k.worker.parcels, ∀ g, p.file = some g → p.filled = true ∧ (g, p.envelope.toBytes) ∈ fs.files.files

variable {fs fs' : Storage}

theorem Safe.same (h : k.Safe fs) (hp : k'.worker.parcels = k.worker.parcels) (hs : fs'.files.files = fs.files.files) :
    k'.Safe fs' :=
  ⟨by rw [hp]; exact h.waiting, by rw [hp]; exact h.formed, by rw [hp, hs]; exact h.stored⟩

theorem Safe.done (h : k.Safe fs) (hp : k.worker.parcels = p :: rest) (hp' : k'.worker.parcels = rest) (fs' : Storage) :
    k'.Safe fs' := by
  have hw := h.waiting
  rw [hp, List.pairwise_cons] at hw
  refine ⟨by rw [hp']; exact hw.2, ?_, ?_⟩
  · intro q hq
    rw [hp'] at hq
    exact h.formed q (by rw [hp]; exact List.mem_cons_of_mem p hq)
  · intro q hq g hg
    rw [hp'] at hq
    rw [hw.1 q hq] at hg
    cases hg

theorem Safe.push (h : k.Safe fs) {q : Parcel} (hp : k'.worker.parcels = k.worker.parcels ++ [q]) (hq : q.file = none)
    (hf : q.filled = true → q.envelope.Formed) : k'.Safe fs := by
  refine ⟨?_, ?_, ?_⟩
  · rw [hp]
    refine List.pairwise_append.mpr ⟨h.waiting, List.pairwise_singleton .., ?_⟩
    intro a ha b hb
    rw [List.mem_singleton.mp hb, hq]
  · rw [hp]
    refine List.forall_mem_append.mpr ⟨h.formed, ?_⟩
    simpa using hf
  · rw [hp]
    refine List.forall_mem_append.mpr ⟨h.stored, ?_⟩
    simp [hq]

theorem Safe.file {r : Spilled} (h : k.Safe d.storage) (hw : k.worker.Housed dir) (hnew : k.NextNew d dir)
    (hp : k.worker.parcels = p :: rest)
    (hr : k.worker.handling.Put d.storage d.clock.now p.envelope r k'.worker.handling fs')
    (hp' : k'.worker.parcels = { p with file := r.file? } :: rest) : k'.Safe fs' := by
  have hwait := h.waiting
  have hformed := h.formed
  rw [hp] at hwait hformed
  obtain ⟨hnone, hrest⟩ := List.pairwise_cons.mp hwait
  refine ⟨?_, ?_, ?_⟩
  · rw [hp']
    exact List.pairwise_cons.mpr ⟨hnone, hrest⟩
  · rw [hp']
    exact List.forall_mem_cons.mpr (List.forall_mem_cons.mp hformed)
  · intro q hq g hg
    rw [hp'] at hq
    rcases List.mem_cons.mp hq with rfl | hq
    · rcases hw.put_cases hr with ⟨hno, -⟩ | ⟨g', rfl, hne, hg', rfl, -⟩
      · cases hno.symm.trans hg
      · cases hg
        refine ⟨by simp [Parcel.filled, hne], ?_⟩
        rw [NextNew, ← hg'] at hnew
        exact (MemoryFiles.insert_perm _ hnew).mem_iff.mpr List.mem_cons_self
    · rw [hnone q hq] at hg
      cases hg

theorem Shift.safe (h : k.Shift d k' d') (hs : k.Safe d.storage) (hw : k.worker.Housed dir)
    (hnew : k.NextNew d dir) (hacc : ∀ e, k'.accepted = k.accepted ++ [e] → e.Formed) : k'.Safe d'.storage := by
  cases h with
  | work hx hv hd =>
    rw [hd]
    cases hx with
    | stay _ hp _ hst => exact hs.same (by rw [hv, hp]) (by rw [hst])
    | file hp _ hr _ hp' => exact hs.file hw hnew hp (by rwa [hv]) (by rw [hv, hp'])
    | drop hp _ _ hp' => exact hs.done hp (by rw [hv, hp']) _
    | keep hp _ _ hp' => exact hs.done hp (by rw [hv, hp']) _
    | forsake hp _ _ _ hp' => exact hs.done hp (by rw [hv, hp']) _
    | lose hp _ _ hp' => exact hs.done hp (by rw [hv, hp']) _
    | stop hp _ _ hp' _ _ hst =>
      exact hs.same (by rw [hv, hp', hp]) (by rw [hst, (Storage.dispose_files _ _).1])
  | rest hp _ hd =>
    rw [hd]
    rcases hp with hp | hp
    · exact hs.same hp rfl
    · exact hs.push hp rfl (by simp [Parcel.filled, Envelope.isEmpty])
  | @accept e hp _ _ hd _ ha =>
    rw [hd]
    exact hs.push hp rfl fun _ => hacc e ha

/-- A file that goes is that of the parcel that is done with. -/
theorem Shift.gone (h : k.Shift d k' d') (hf : d.storage.Fit) (hw : k.worker.Housed dir)
    (hnew : k.NextNew d dir) {y : Path × Bytes} (hy : y ∈ d.storage.files.files) :
    y ∈ d'.storage.files.files ∨
      ∃ p rest f g, k.worker.parcels = p :: rest ∧ k'.settled = k.settled ++ [(p, f)] ∧
        (f = .delivered ∨ ∃ e, f = .failed e) ∧ p.file = some g ∧ y.1.same g = true := by
  -- a new name takes the place of none
  have hput {e : Envelope} {r : Spilled}
      (hr : k.worker.handling.Put d.storage d.clock.now e r k'.worker.handling d'.storage) :
      y ∈ d'.storage.files.files := by
    rcases hw.put_cases hr with ⟨-, hsame, -⟩ | ⟨g, -, -, rfl, hhold, -⟩
    · rw [hsame]
      exact hy
    · rw [hhold]
      exact (MemoryFiles.insert_perm _ hnew).mem_iff.mpr (List.mem_cons_of_mem _ hy)
  cases h with
  | work hx hv hd hset =>
    cases hx with
    | stay _ _ _ hst => exact .inl (by rw [hd, hst]; exact hy)
    | file _ _ hr => exact .inl (hput (by rw [hv, hd]; exact hr))
    | @drop p rest f hp hfate hsome _ _ hst =>
      cases hg : p.file with
      | none =>
        rw [hd, hst, hg]
        exact .inl hy
      | some g =>
        by_cases hs : y.1.same g = true
        · refine .inr ⟨p, rest, f, g, hp, ?_, hfate, hg, hs⟩
          rw [hset, hsome]
          rfl
        · rw [hd, hst, hg, Storage.remove_some hf.allowed]
          exact .inl (Storage.mem_without.mpr ⟨hy, by simpa using hs⟩)
    | keep _ _ _ _ _ hst => exact .inl (by rw [hd, hst]; exact hy)
    | forsake _ _ hr => exact .inl (hput (by rw [hv, hd]; exact hr))
    | lose _ _ _ _ _ hst => exact .inl (by rw [hd, hst]; exact hy)
    | stop _ _ _ _ _ _ hst => exact .inl (by rw [hd, hst, (Storage.dispose_files _ _).1]; exact hy)
  | rest _ _ hd => exact .inl (by rw [hd]; exact hy)
  | accept _ _ _ hd => exact .inl (by rw [hd]; exact hy)

/-- A file is written only where there is room for it. -/
theorem Change.bounded (hc : k.Change d k' d') (hf : d.storage.Fit) (hw : k.worker.Housed dir)
    (hs : k.worker.handling.Spills room) (hnew : k.NextNew d dir)
    (hl : (d.storage.shelf dir).length ≤ room.toNat) : (d'.storage.shelf dir).length ≤ room.toNat := by
  have hfewer {fs : Storage} (h : fs.files.files.Sublist d.storage.files.files) :
      (fs.shelf dir).length ≤ room.toNat := Nat.le_trans (h.filter _).length_le hl
  rcases hc.writes with hwr | hsub
  · cases hwr with
    | nothing _ hsub => exact hfewer hsub
    | @target p g _ ht hst =>
      obtain ⟨s, retry, q, hh, -, ht'⟩ := Worker.target?_eq_some ht
      obtain ⟨-, -, -, files, hlist, hlt⟩ := SpillDir.target?_eq_some ht'
      obtain ⟨s', retry', hh', -, rfl⟩ := hs
      cases hh.symm.trans hh'
      rw [show s.dir = dir from (hw.claim s retry hh).1, Storage.list_shelf hf.allowed] at hlist
      cases hlist
      rw [List.length_map] at hlt
      rw [NextNew, ← hw.target?_eq ht] at hnew
      rw [hst]
      rcases hwrite : d.storage.write g p.envelope.toBytes with ⟨e | u, fs'⟩
      · rw [Storage.write_error hwrite]
        exact hl
      · cases u
        have hshelf : Storage.onShelf dir g = true :=
          Storage.onShelf_of_same (by rw [← hw.target?_eq ht]; exact Path.same_refl g)
        rw [Storage.write_ok hwrite, (Storage.shelf_holding hshelf hnew).length_eq]
        exact hlt
  · exact hfewer hsub

end Desk

/-! ## Envelopes without a file -/

namespace Worker

variable {w : Worker} {d : Depot} {p : Parcel} {x : Stride} {dir : Path} {room : UInt64}

/-- What the worker has in hand, once it was to be put into a file. -/
def prepared? (w : Worker) : Option Parcel :=
  match w.position with
  | .due p _ => some p
  | .sending p _ _ => some p
  | .pausing p _ => some p
  | _ => none

theorem Move.prepared (hm : w.Move d x) (hp : x.worker.prepared? = some p) :
    x.settled = none ∧ (w.prepared? = some p ∨ ∃ q, w.position = .taken q ∧ x = w.begin d q) := by
  cases hm with
  | close => cases hp
  | take => cases hp
  | @begin q hq => exact ⟨begin_settled, .inr ⟨q, hq, rfl⟩⟩
  | hand hq => exact ⟨rfl, .inl (by simpa [prepared?, hq] using hp)⟩
  | blank => cases hp
  | pause hq => exact ⟨rfl, .inl (by simpa [prepared?, hq] using hp)⟩
  | fail => cases hp
  | yield => cases hp
  | @abandon q rest hq =>
    obtain ⟨h, hv⟩ := forsake_worker { w with queue := rest } d q
    have hclosing : ({ w with queue := rest }.abandon d q).worker.position = .closing := by
      rw [Worker.abandon, release_position, hv]
      exact hq
    simp [prepared?, hclosing] at hp
  | stop =>
    unfold Worker.stop at hp
    split at hp <;> cases hp

theorem Polled.prepared {w' : Worker} (hw : w.Polled w') : w'.prepared? = w.prepared? := by
  cases hw <;> rfl

/-- The directory takes no file for an envelope: there is no room for one, or the storage does not take it. -/
inductive Refuses (w : Worker) (d : Depot) (dir : Path) (room : Nat) (e : Envelope) : Prop
  | full (hr : (w.spill d e).1 = .full) (hl : room ≤ (d.storage.shelf dir).length)
  | failed {g er} (hr : (w.spill d e).1 = .failed) (ht : w.target? d = some g)
    (hw : (d.storage.write g e.toBytes).1 = .error er)

/-- An envelope goes without a file where the directory takes none. -/
theorem begin_refused {q : Parcel} (hp : w.position = .taken q) (hs : w.handling.Spills room) (hw : w.Housed dir)
    (hf : d.storage.Fit) (hq : (w.begin d q).worker.prepared? = some p) (hn : p.filled = true) (hg : p.file = none) :
    q = p ∧ w.Refuses d dir room.toNat p.envelope ∧
      w.begin d p = ⟨{ (w.spill d p.envelope).2.1 with position := .due p 1 }, (w.spill d p.envelope).2.2, none⟩ := by
  obtain ⟨s, retry, hh, he, rfl⟩ := hs
  cases hfile : q.file with
  | some g =>
    simp only [begin, hfile, prepared?, Option.some.injEq] at hq
    rw [← hq, hfile] at hg
    cases hg
  | none =>
    have hspill : w.spill d q.envelope = ((s.write d.storage d.clock.now q.envelope).1,
        { w with handling := .durable (s.write d.storage d.clock.now q.envelope).2.1 retry },
        { d with storage := (s.write d.storage d.clock.now q.envelope).2.2 }) := by
      simp only [spill, hh]
    simp only [begin, hfile, hspill, prepared?, Option.some.injEq] at hq
    obtain rfl : q = p := by
      rw [← hq] at hg ⊢
      simp only at hg
      rw [hg, ← hfile]
    have hnone : (s.write d.storage d.clock.now q.envelope).1.file? = none := by
      rw [← hg, ← hq]
    have htarget : w.target? d = s.target? d.storage d.clock.now q.envelope := by
      have hspilling : w.spilling? = some q := by simp [spilling?, hp, hfile]
      simp only [target?, spillDir?, hh, hspilling, Option.bind_some]
    have hempty : q.envelope.isEmpty = false := by simpa [Parcel.filled] using hn
    have hlist : d.storage.list s.dir SpillDir.extension = .ok ((d.storage.shelf dir).map Prod.fst) := by
      rw [show s.dir = dir from (hw.claim s retry hh).1, Storage.list_shelf hf.allowed]
    refine ⟨rfl, ?_, ?_⟩
    · -- a name is chosen if there is room, and then it is the write that fails
      by_cases hl : s.capacity.toNat ≤ (d.storage.shelf dir).length
      · refine .full ?_ hl
        simp [hspill, SpillDir.write, he, hempty, hlist, hl]
      · have ht : s.target? d.storage d.clock.now q.envelope =
            some (s.dir.join (SpillDir.fileName d.clock.now s.sequence)) := by
          simp [SpillDir.target?, he, hempty, hlist, hl]
        obtain ⟨er, hwrite⟩ := (SpillDir.write_of_target ht).2 hnone
        refine .failed ?_ (htarget.trans ht) hwrite
        simp only [hspill, SpillDir.write, SpillDir.nextFile, he, hempty, hlist, List.length_map, hl, Bool.not_true,
          Bool.or_self, Bool.false_eq_true, if_false]
        rcases hfs : d.storage.write (s.dir.join (SpillDir.fileName d.clock.now s.sequence)) q.envelope.toBytes with
          ⟨er' | u, fs⟩
        · rfl
        · rw [hfs] at hwrite
          cases hwrite
    · simp only [begin, hfile, hspill, hq]

end Worker

theorem Desk.Change.prepared {k k' : Desk} {d d' : Depot} {p : Parcel} (hc : k.Change d k' d')
    (hp : k'.worker.prepared? = some p) :
    k'.settled = k.settled ∧ (k.worker.prepared? = some p ∨
      ∃ q, k.worker.position = .taken q ∧ k'.worker = (k.worker.begin d q).worker ∧
        k.act? d .step = some (k', d')) := by
  cases hc with
  | step hm =>
    obtain ⟨hs, h⟩ := hm.prepared hp
    refine ⟨by simp [moved, hs], ?_⟩
    rcases h with h | ⟨q, hq, rfl⟩
    · exact .inl h
    · exact .inr ⟨q, hq, rfl, by simp [act?, Worker.step?, hq]⟩
  | error hq e =>
    obtain ⟨hs, h⟩ := (Worker.answered_move hq e).prepared hp
    refine ⟨by simp [moved, hs], ?_⟩
    rcases h with h | ⟨q, hq', -⟩
    · exact .inl h
    · cases hq.symm.trans hq'
  | arrive => cases hp
  | resume hq => exact ⟨rfl, .inl (by simpa [Worker.prepared?, hq] using hp)⟩
  | accept => exact ⟨rfl, .inl hp⟩
  | refuse => exact ⟨rfl, .inl hp⟩
  | polled waits hw => exact ⟨rfl, .inl (hw.prepared ▸ hp)⟩

/-- Only a step of the worker gets an envelope ready to be sent. -/
theorem Desk.step_of_taken {k k' : Desk} {d d' : Depot} {p q : Parcel} {a : Act} (hq : k.worker.position = .taken q)
    (h : k.act? d a = some (k', d')) (hp : k'.worker.prepared? = some p) : a = .step := by
  have hnone : k.worker.prepared? = none := by simp [Worker.prepared?, hq]
  have hsame (hw : k'.worker.prepared? = k.worker.prepared?) : a = .step := by
    rw [hw, hnone] at hp
    cases hp
  cases a with
  | step => rfl
  | answer r => simp [act?, Worker.sending?, hq] at h
  | resume => simp [act?, Worker.isPausing, hq] at h
  | offer e reason? =>
    have he : k.offered d e reason? = (k', d') := Option.some.inj h
    have ho := k.worker.enqueue_offered d e
    unfold offered at he
    generalize k.worker.enqueue d e = x at he ho
    cases ho <;> cases he <;> exact hsame rfl
  | call e =>
    cases h
    exact hsame rfl
  | look n now =>
    obtain ⟨x, -, he⟩ := Option.map_eq_some_iff.mp h
    cases he
    exact hsame (Worker.poll_polled now x).prepared

/-! ## Starts -/

theorem SpillDir.resumed_capacity (s : SpillDir) (files : List Path) : (s.resumed files).capacity = s.capacity := by
  unfold resumed
  split <;> rfl

theorem Worker.Started.spills {settings : Settings} {w : Worker} {fs fs' : Storage} {dir : String}
    (h : Started settings fs w fs') (hd : settings.cacheDir = some dir)
    (hl : fs.files.isLocked (DirClaim.lockPath ⟨dir⟩) = false) : w.handling.Spills settings.cacheCapacity := by
  cases h with
  | @owner _ claim fs₁ backlog spill _ hd' ha hr =>
    rw [withBacklog_eq]
    refine ⟨spill, settings.retry, rfl, (recover_claim hr).2, ?_⟩
    unfold SpillDir.recover at hr
    split at hr
    · cases hr
      rfl
    · cases hr
      exact SpillDir.resumed_capacity ..
  | guest hd' ha =>
    cases hd.symm.trans hd'
    obtain ⟨-, hl', -⟩ := DirClaim.acquire_false ha
    rw [hl] at hl'
    cases hl'

/-! ## Runs -/

/-- No other worker is started, and what is offered can be read back from a file. -/
def Event.Alone : Event → Prop
  | .desk _ (.offer e _) => e.Formed
  | .start _ _ => False
  | _ => True

instance (e : Event) : Decidable e.Alone :=
  match e with
  | .desk _ (.offer e _) => inferInstanceAs (Decidable e.Formed)
  | .start _ _ => .isFalse id
  | .desk _ .step | .desk _ (.answer _) | .desk _ .resume | .desk _ (.call _) | .desk _ (.look _ _) | .clock _
  | .failWrites _ => .isTrue trivial

theorem Event.Alone.not_start {e : Event} (h : e.Alone) : e.isStart = false := by
  cases e with
  | start => cases h
  | _ => rfl

namespace Office

/-- In this run a parcel was to be put into a file, when so much was settled. The worker tried it, the directory took
none, and the worker went on without a file. -/
inductive Refused (first : Office) (es : List Event) (dir : Path) (room : Nat) (settled : List (Parcel × Fate))
    (p : Parcel) : Prop
  | tried {before after u v k k'} (run : es = before ++ .desk 0 .step :: after) (found : first.follow? before = some u)
    (desks : u.desks = [k]) (taken : k.worker.position = .taken p) (since : k.settled = settled)
    (refuses : k.worker.Refuses u.depot dir room p.envelope) (next : u.after? (.desk 0 .step) = some v)
    (desks' : v.desks = [k'])
    (worker : k'.worker = { (k.worker.spill u.depot p.envelope).2.1 with position := .due p 1 })
    (depot : v.depot = (k.worker.spill u.depot p.envelope).2.2) : Refused first es dir room settled p

/-- The only worker keeps what it has in hand in a file, or the file was refused. -/
structure Guarded (first : Office) (es : List Event) (s : Office) (dir : Path) (room : UInt64) (k : Desk) : Prop
    extends s.Numbered dir 0 k where
  run : first.follow? es = some s
  spills : k.worker.handling.Spills room
  safe : k.Safe s.depot.storage
  bounded : (s.depot.storage.shelf dir).length ≤ room.toNat
  refused : ∀ p, k.worker.prepared? = some p → p.filled = true → p.file = none →
    Refused first es dir room.toNat k.settled p

variable {first s t : Office} {es : List Event} {dir : Path} {k : Desk} {room : UInt64}

theorem Refused.snoc {p : Parcel} {n : Nat} {settled : List (Parcel × Fate)} (h : Refused first es dir n settled p)
    (e : Event) : Refused first (es ++ [e]) dir n settled p := by
  cases h with
  | @tried before after u v k k' run found desks taken since refuses next desks' worker depot =>
    have hrun : es ++ [e] = before ++ .desk 0 .step :: (after ++ [e]) := by simp [run]
    exact .tried hrun found desks taken since refuses next desks' worker depot

theorem Numbered.next_new (h : s.Numbered dir 0 k) (hb : s.names < 10 ^ 6) : k.NextNew s.depot dir :=
  h.below.next_new (h.sequence_lt (by omega)) _

theorem Numbered.only {i : Nat} {b : Desk} (h : s.Numbered dir 0 k) (hb : s.desks[i]? = some b) : i = 0 ∧ b = k := by
  rw [h.desks] at hb
  cases i with
  | zero => exact ⟨rfl, (Option.some.inj hb).symm⟩
  | succ i => cases hb

theorem Guarded.act {i : Nat} {a : Act} (h : Guarded first es s dir room k) (he : (Event.desk i a).Alone)
    (hb : s.names < 10 ^ 6) (ht : s.after? (.desk i a) = some t) :
    ∃ k', Guarded first (es ++ [.desk i a]) t dir room k' := by
  have hrun : first.follow? (es ++ [.desk i a]) = some t := by rw [follow?_snoc, h.run, Option.bind_some, ht]
  obtain ⟨k', hn⟩ := h.toNumbered.next he.not_start (by omega) ht
  have hnew := h.next_new hb
  obtain ⟨b, b', hk, hact, hd, hnames⟩ := after?_act ht
  obtain ⟨rfl, rfl⟩ := h.only hk
  obtain rfl : k' = b' := by
    rw [hn.desks, h.desks] at hd
    simpa using hd
  have hc := Desk.act?_change hact
  refine ⟨k', hn, hrun, hc.shift.spills h.spills, hc.shift.safe h.safe h.housed hnew ?_,
    hc.bounded h.fit h.housed h.spills hnew h.bounded, ?_⟩
  · intro e hacc
    rcases Desk.act?_accepted hact with hsame | ⟨e', reason?, rfl, hadd⟩
    · rw [hsame] at hacc
      simp at hacc
    · rw [hadd] at hacc
      cases List.append_cancel_left hacc
      exact he
  · intro p hp hf hg
    obtain ⟨hset, hp'⟩ := hc.prepared hp
    rw [hset]
    rcases hp' with hp' | ⟨q, hq, hw, hstep⟩
    · exact (h.refused p hp' hf hg).snoc _
    · obtain ⟨rfl, why, hbegin⟩ := Worker.begin_refused hq h.spills h.housed h.fit (hw ▸ hp) hf hg
      obtain rfl := Desk.step_of_taken hq hact hp
      have hdepot : t.depot = (b.worker.spill s.depot q.envelope).2.2 := by
        rw [Desk.act?, Worker.step?, hq] at hstep
        simp only [Option.map_some, hbegin, Option.some.injEq, Prod.mk.injEq] at hstep
        exact hstep.2.symm
      rw [hbegin] at hw
      exact .tried rfl h.run h.desks hq rfl why ht hn.desks hw hdepot

theorem Guarded.next {e : Event} (h : Guarded first es s dir room k) (he : e.Alone) (hb : s.names < 10 ^ 6)
    (ht : s.after? e = some t) : ∃ k', Guarded first (es ++ [e]) t dir room k' := by
  have hrun : first.follow? (es ++ [e]) = some t := by rw [follow?_snoc, h.run, Option.bind_some, ht]
  cases e with
  | desk i a => exact h.act he hb ht
  | clock n =>
    cases ht
    exact ⟨k, ⟨h.desks, h.sound, h.housed, h.fit, h.below, h.names⟩, hrun, h.spills, h.safe, h.bounded,
      fun p hp hf hg => (h.refused p hp hf hg).snoc _⟩
  | failWrites on =>
    cases ht
    exact ⟨k, ⟨h.desks, h.sound, h.housed, ⟨h.fit.sorted, h.fit.allowed⟩, h.below, h.names⟩, hrun, h.spills,
      ⟨h.safe.waiting, h.safe.formed, h.safe.stored⟩, h.bounded, fun p hp hf hg => (h.refused p hp hf hg).snoc _⟩
  | start durable settings => cases he

/-- A file goes only in the step that its envelope is done with. -/
theorem Guarded.gone {e : Event} (h : Guarded first es s dir room k) (he : e.Alone) (hb : s.names < 10 ^ 6)
    (ht : s.after? e = some t) {x : Path × Bytes} (hx : x ∈ s.depot.storage.shelf dir) :
    x ∈ t.depot.storage.shelf dir ∨
      ∃ k' p f, t.desks = [k'] ∧ k.worker.Resolves p f ∧ k'.settled = k.settled ++ [(p, f)] ∧
        p.file = some x.1 ∧ x.2 = p.envelope.toBytes := by
  obtain ⟨hm, ho⟩ := Storage.mem_shelf.mp hx
  cases e with
  | clock n => cases ht; exact .inl hx
  | failWrites on => cases ht; exact .inl hx
  | start durable settings => cases he
  | desk i a =>
    obtain ⟨b, k', hk, hc, hd, -⟩ := after?_desk ht
    obtain ⟨rfl, rfl⟩ := h.only hk
    rcases hc.shift.gone h.fit h.housed (h.next_new hb) hm with
      hstay | ⟨p, rest, f, g, hp, hset, hf, hg, hsame⟩
    · exact .inl (Storage.mem_shelf.mpr ⟨hstay, ho⟩)
    · obtain ⟨hn, hstored⟩ := h.safe.stored p (by simp [hp]) g hg
      obtain rfl := h.fit.sorted.unique hm hstored hsame
      exact .inr ⟨k', p, f, by simp [hd, h.desks], hc.resolves h.spills hset hf (by simp [hg]) hn, hset, hg, rfl⟩

theorem Guarded.follow (h : Guarded first [] first dir room k) (he : ∀ e ∈ es, e.Alone)
    (hs : first.follow? es = some s) (hb : s.names < 10 ^ 6) : ∃ k', Guarded first es s dir room k' := by
  induction es using List.reverseRecOn generalizing s with
  | nil =>
    cases hs
    exact ⟨k, h⟩
  | append_singleton es e ih =>
    rw [follow?_snoc] at hs
    obtain ⟨t, ht, hs⟩ := Option.bind_eq_some_iff.mp hs
    obtain ⟨hes, hlast⟩ := List.forall_mem_append.mp he
    have hle := names_le hs
    have hbelow : t.names < 10 ^ 6 := by omega
    obtain ⟨k', hk'⟩ := ih hes ht hbelow
    exact hk'.next (hlast e (List.mem_singleton_self e)) hbelow hs

end Office

end Courier

import Courier.Proofs.Recover

/-!
# What stands where

Beside each parcel of a desk stands the envelope that was accepted for it, by this worker or by an earlier one: the
parcel holds that envelope, or what was read back from its file. What a change does to the files is told in terms
of these.
-/

namespace Courier

def Fate.file? : Fate → Option Path
  | .kept file => some file
  | _ => none

/-- The first envelope was accepted, and the second one is at hand for it. -/
def Envelope.Reads (e f : Envelope) : Prop := f = e ∨ Envelope.ofBytes e.toBytes = .ok f

abbrev Done := List (Envelope × Parcel × Fate)

abbrev Todo := List (Envelope × Parcel)

def placesDone (done : Done) : List (Envelope × Path) := done.filterMap fun x => x.2.2.file?.map (x.1, ·)

def placesTodo (todo : Todo) : List (Envelope × Path) := todo.filterMap fun x => x.2.file.map (x.1, ·)

def places (done : Done) (todo : Todo) : List (Envelope × Path) := placesDone done ++ placesTodo todo

/-- The parcels of a desk with the envelopes that were accepted for them; what earlier workers left comes first. -/
structure Desk.Sheet (k : Desk) (earlier : List Envelope) (done : Done) (todo : Todo) : Prop where
  settled : k.settled.filter (·.1.filled) = done.map Prod.snd
  waiting : k.worker.parcels.filter Parcel.filled = todo.map Prod.snd
  sources : earlier ++ k.accepted = done.map Prod.fst ++ todo.map Prod.fst
  read : ∀ x ∈ done, x.1.Reads x.2.1.envelope
  /-- Only what was read from a file may differ from what was accepted. -/
  held : ∀ x ∈ todo, x.2.envelope = x.1 ∨ x.2.file.isSome = true ∧ Envelope.ofBytes x.1.toBytes = .ok x.2.envelope
  filed : ∀ p ∈ k.worker.parcels, p.file.isSome = true → p.filled = true

/-- What a change does to the sheet, to the sequence of names and to the files. -/
inductive Filing (dir : Path) (now : Timestamp) (fs fs' : Storage) (q q' : UInt64) (done : Done) (todo : Todo) :
    Done → Todo → Prop
  | idle (hf : fs'.files.files = fs.files.files) (hd : fs'.denied = fs.denied) (hq : q' = q ∨ q' = q + 1) :
    Filing dir now fs fs' q q' done todo done todo
  | accept (e : Envelope) (hf : fs' = fs) (hq : q' = q) :
    Filing dir now fs fs' q q' done todo done (todo ++ [(e, ⟨e, none, true⟩)])
  | drop {e p rest} {f : Fate} (ht : todo = (e, p) :: rest) (hn : f.file? = none)
    (hf : fs' = SpillDir.remove fs p.file) (hq : q' = q ∨ q' = q + 1) :
    Filing dir now fs fs' q q' done todo (done ++ [(e, p, f)]) rest
  | keep {e p rest g} (ht : todo = (e, p) :: rest) (hg : p.file = some g) (hf : fs' = fs) (hq : q' = q) :
    Filing dir now fs fs' q q' done todo (done ++ [(e, p, .kept g)]) rest
  | file {e p rest g} (ht : todo = (e, p) :: rest) (hn : p.file = none) (hg : g = dir.join (SpillDir.fileName now q))
    (hf : fs' = fs.holding g e.toBytes) (hq : q' = q + 1) :
    Filing dir now fs fs' q q' done todo done ((e, { p with file := some g }) :: rest)
  | shelve {e p rest g} (ht : todo = (e, p) :: rest) (hn : p.file = none)
    (hg : g = dir.join (SpillDir.fileName now q)) (hf : fs' = fs.holding g e.toBytes) (hq : q' = q + 1) :
    Filing dir now fs fs' q q' done todo (done ++ [(e, p, .kept g)]) rest

namespace Desk

variable {k k' : Desk} {d d' : Depot} {earlier : List Envelope} {done : Done} {todo : Todo} {dir : Path}

theorem Sheet.head (hs : k.Sheet earlier done todo) {p : Parcel} {rest : List Parcel}
    (hp : k.worker.parcels = p :: rest) (hf : p.filled = true) :
    ∃ e more, todo = (e, p) :: more ∧ rest.filter Parcel.filled = more.map Prod.snd := by
  have hw := hs.waiting
  rw [hp, List.filter_cons, if_pos hf] at hw
  obtain ⟨⟨e, p'⟩, more, rfl, hp', hm⟩ := List.map_eq_cons_iff.mp hw.symm
  cases hp'
  exact ⟨e, more, rfl, hm.symm⟩

theorem Sheet.blank (hs : k.Sheet earlier done todo) {p : Parcel} {rest : List Parcel}
    (hp : k.worker.parcels = p :: rest) (hf : p.filled = false) : rest.filter Parcel.filled = todo.map Prod.snd := by
  rw [← hs.waiting, hp, List.filter_cons, if_neg (by simp [hf])]

theorem Sheet.settle (hs : k.Sheet earlier done todo) {p : Parcel} {rest : List Parcel} {f : Fate}
    (hp : k.worker.parcels = p :: rest) (hp' : k'.worker.parcels = rest) (hset : k'.settled = k.settled ++ [(p, f)])
    (ha : k'.accepted = k.accepted) :
    (p.filled = false ∧ k'.Sheet earlier done todo) ∨
      ∃ e more, todo = (e, p) :: more ∧ k'.Sheet earlier (done ++ [(e, p, f)]) more := by
  have hfiled : ∀ q ∈ k'.worker.parcels, q.file.isSome = true → q.filled = true :=
    fun q hq => hs.filed q (by rw [hp, ← hp']; exact List.mem_cons_of_mem _ hq)
  cases hf : p.filled with
  | false =>
    refine .inl ⟨rfl, ⟨?_, ?_, by rw [ha]; exact hs.sources, hs.read, hs.held, hfiled⟩⟩
    · rw [hset, List.filter_append, hs.settled]
      simp [hf]
    · rw [hp']
      exact hs.blank hp hf
  | true =>
    obtain ⟨e, more, rfl, hm⟩ := hs.head hp hf
    refine .inr ⟨e, more, rfl, ⟨?_, by rw [hp', hm], ?_, ?_, fun x hx => hs.held x (List.mem_cons_of_mem _ hx), hfiled⟩⟩
    · rw [hset, List.filter_append, hs.settled, List.map_append]
      simp [hf]
    · rw [ha, hs.sources]
      simp
    · refine List.forall_mem_append.mpr ⟨hs.read, fun x hx => ?_⟩
      cases List.mem_singleton.mp hx
      exact (hs.held (e, p) List.mem_cons_self).imp_right And.right

theorem Sheet.refile (hs : k.Sheet earlier done todo) {p : Parcel} {rest : List Parcel} {g : Path}
    (hp : k.worker.parcels = p :: rest) (hf : p.filled = true) (hn : p.file = none)
    (hp' : k'.worker.parcels = { p with file := some g } :: rest) (hset : k'.settled = k.settled)
    (ha : k'.accepted = k.accepted) :
    ∃ e more, todo = (e, p) :: more ∧ p.envelope = e ∧
      k'.Sheet earlier done ((e, { p with file := some g }) :: more) := by
  obtain ⟨e, more, rfl, hm⟩ := hs.head hp hf
  have he : p.envelope = e := by
    refine (hs.held (e, p) List.mem_cons_self).resolve_right fun h => ?_
    rw [hn] at h
    cases h.1
  refine ⟨e, more, rfl, he, ⟨by rw [hset]; exact hs.settled, ?_, by rw [ha]; exact hs.sources, hs.read, ?_, ?_⟩⟩
  · rw [hp', List.filter_cons, if_pos (show ({ p with file := some g } : Parcel).filled = true from hf), hm]
    rfl
  · intro x hx
    rcases List.mem_cons.mp hx with rfl | hx
    · exact .inl he
    · exact hs.held x (List.mem_cons_of_mem _ hx)
  · intro q hq hqf
    rw [hp'] at hq
    rcases List.mem_cons.mp hq with rfl | hq
    · exact hf
    · exact hs.filed q (by rw [hp]; exact List.mem_cons_of_mem _ hq) hqf

theorem Sheet.same (hs : k.Sheet earlier done todo) (hp : k'.worker.parcels = k.worker.parcels)
    (hset : k'.settled = k.settled) (ha : k'.accepted = k.accepted) : k'.Sheet earlier done todo :=
  ⟨by rw [hset]; exact hs.settled, by rw [hp]; exact hs.waiting, by rw [ha]; exact hs.sources, hs.read, hs.held,
    by rw [hp]; exact hs.filed⟩

theorem Sheet.report (hs : k.Sheet earlier done todo) (hp : k'.worker.parcels = k.worker.parcels ++ [⟨{}, none, false⟩])
    (hset : k'.settled = k.settled) (ha : k'.accepted = k.accepted) : k'.Sheet earlier done todo := by
  refine ⟨by rw [hset]; exact hs.settled, ?_, by rw [ha]; exact hs.sources, hs.read, hs.held, ?_⟩
  · rw [hp, List.filter_append, hs.waiting]
    simp [Parcel.filled, Envelope.isEmpty]
  · rw [hp]
    exact List.forall_mem_append.mpr ⟨hs.filed, by simp⟩

theorem Sheet.accept (hs : k.Sheet earlier done todo) {e : Envelope} (he : e.isEmpty = false)
    (hp : k'.worker.parcels = k.worker.parcels ++ [⟨e, none, true⟩]) (hset : k'.settled = k.settled)
    (ha : k'.accepted = k.accepted ++ [e]) : k'.Sheet earlier done (todo ++ [(e, ⟨e, none, true⟩)]) := by
  refine ⟨by rw [hset]; exact hs.settled, ?_, ?_, hs.read, ?_, ?_⟩
  · rw [hp, List.filter_append, hs.waiting, List.map_append]
    simp [Parcel.filled, he]
  · rw [ha, ← List.append_assoc, hs.sources, List.map_append, List.append_assoc]
    rfl
  · exact List.forall_mem_append.mpr ⟨hs.held, by simp⟩
  · rw [hp]
    exact List.forall_mem_append.mpr ⟨hs.filed, by simp⟩

end Desk

/-! ## What a change does -/

namespace Worker

variable {v w : Worker} {dir : Path}

theorem sequence_of_handling (h : v.handling = w.handling) : v.sequence = w.sequence := by
  simp only [sequence, spillDir?, h]

/-- An envelope stays without a file, or its file has the name that comes next. -/
theorem Housed.put_cases {fs fs' : Storage} {now : Timestamp} {e : Envelope} {r : Spilled} (hw : w.Housed dir)
    (hr : w.handling.Put fs now e r v.handling fs') :
    (r.file? = none ∧ fs' = fs ∧ (v.sequence = w.sequence ∨ v.sequence = w.sequence + 1)) ∨
      ∃ g, r = .written g ∧ e.isEmpty = false ∧ g = dir.join (SpillDir.fileName now w.sequence) ∧
        fs' = fs.holding g e.toBytes ∧ v.sequence = w.sequence + 1 := by
  generalize hv : v.handling = h at hr
  cases hr with
  | refused hn => exact .inl ⟨hn, rfl, .inl (sequence_of_handling hv)⟩
  | wasted hh =>
    refine .inl ⟨rfl, rfl, .inr ?_⟩
    simp [sequence, spillDir?, hv, hh, SpillDir.nextFile]
  | @written s retry hh _ hn =>
    refine .inr ⟨_, rfl, hn, ?_, rfl, ?_⟩
    · simp [sequence, spillDir?, hh, SpillDir.nextFile, SpillDir.dir, (hw.claim s retry hh).1]
    · simp [sequence, spillDir?, hv, hh, SpillDir.nextFile]

end Worker

namespace Desk

variable {k k' : Desk} {d d' : Depot} {earlier : List Envelope} {done : Done} {todo : Todo} {dir : Path}

theorem Sheet.no_file (hs : k.Sheet earlier done todo) {p : Parcel} {rest : List Parcel}
    (hp : k.worker.parcels = p :: rest) (hf : p.filled = false) : p.file = none := by
  cases hg : p.file with
  | none => rfl
  | some g =>
    have := hs.filed p (by rw [hp]; exact List.mem_cons_self) (by rw [hg]; rfl)
    rw [hf] at this
    cases this

theorem Sheet.drop {p : Parcel} {rest : List Parcel} {f : Fate} {fs' : Storage} (hs : k.Sheet earlier done todo)
    (hp : k.worker.parcels = p :: rest) (hn : f.file? = none) (hfs : fs' = SpillDir.remove d.storage p.file)
    (hh : k'.worker.handling = k.worker.handling) (hp' : k'.worker.parcels = rest)
    (hset : k'.settled = k.settled ++ [(p, f)]) (ha : k'.accepted = k.accepted) :
    ∃ done' todo', Filing dir d.clock.now d.storage fs' k.worker.sequence k'.worker.sequence done todo done' todo' ∧
      k'.Sheet earlier done' todo' := by
  have hq := Worker.sequence_of_handling hh
  rcases hs.settle hp hp' hset ha with ⟨hf, hs'⟩ | ⟨e, more, rfl, hs'⟩
  · rw [hs.no_file hp hf] at hfs
    exact ⟨done, todo, .idle (by rw [hfs]; rfl) (by rw [hfs]; rfl) (.inl hq), hs'⟩
  · exact ⟨_, more, .drop rfl hn hfs (.inl hq), hs'⟩

section
variable {p : Parcel} {rest : List Parcel} {r : Spilled} {fs' : Storage}
variable (hs : k.Sheet earlier done todo) (hw : k.worker.Housed dir) (hp : k.worker.parcels = p :: rest)
include hs hw hp

theorem Sheet.begin (hn : p.file = none)
    (hr : k.worker.handling.Put d.storage d.clock.now p.envelope r k'.worker.handling fs')
    (hp' : k'.worker.parcels = { p with file := r.file? } :: rest) (hset : k'.settled = k.settled)
    (ha : k'.accepted = k.accepted) :
    ∃ done' todo', Filing dir d.clock.now d.storage fs' k.worker.sequence k'.worker.sequence done todo done' todo' ∧
      k'.Sheet earlier done' todo' := by
  rcases hw.put_cases hr with ⟨hnone, rfl, hq⟩ | ⟨g, rfl, hne, hg, rfl, hq⟩
  · refine ⟨done, todo, .idle rfl rfl hq, hs.same ?_ hset ha⟩
    rw [hp', hp, hnone, ← hn]
  · obtain ⟨e, more, rfl, he, hs'⟩ := hs.refile (g := g) hp (by simp [Parcel.filled, hne]) hn hp' hset ha
    exact ⟨done, _, .file rfl hn hg (by rw [he]) hq, hs'⟩

theorem Sheet.forsake (hn : p.file = none)
    (hr : k.worker.handling.Put d.storage d.clock.now p.envelope r k'.worker.handling fs')
    (hp' : k'.worker.parcels = rest) (hset : k'.settled = k.settled ++ [(p, r.fate)]) (ha : k'.accepted = k.accepted) :
    ∃ done' todo', Filing dir d.clock.now d.storage fs' k.worker.sequence k'.worker.sequence done todo done' todo' ∧
      k'.Sheet earlier done' todo' := by
  rcases hw.put_cases hr with ⟨hnone, rfl, hq⟩ | ⟨g, rfl, hne, hg, rfl, hq⟩
  · obtain ⟨reason, hfate⟩ := Spilled.fate_of_no_file hnone
    rcases hs.settle hp hp' hset ha with ⟨-, hs'⟩ | ⟨e, more, rfl, hs'⟩
    · exact ⟨done, todo, .idle rfl rfl hq, hs'⟩
    · exact ⟨_, more, .drop rfl (by rw [hfate]; rfl) (by rw [hn]; rfl) hq, hs'⟩
  · rcases hs.settle hp hp' hset ha with ⟨hf, -⟩ | ⟨e, more, rfl, hs'⟩
    · simp [Parcel.filled, hne] at hf
    · have he : p.envelope = e := by
        refine (hs.held (e, p) List.mem_cons_self).resolve_right fun h => ?_
        rw [hn] at h
        cases h.1
      exact ⟨_, more, .shelve rfl hn hg (by rw [he]) hq, hs'⟩

end

/-- What a worker does to its files is told by its sheet. -/
theorem Sheet.work {x : Stride} (hs : k.Sheet earlier done todo) (hw : k.worker.Housed dir)
    (hx : k.worker.Shelving d x) (hv : k'.worker = x.worker) (hset : k'.settled = k.settled ++ x.settled.toList)
    (ha : k'.accepted = k.accepted) :
    ∃ done' todo', Filing dir d.clock.now d.storage x.depot.storage k.worker.sequence k'.worker.sequence done todo
      done' todo' ∧ k'.Sheet earlier done' todo' := by
  cases hx with
  | stay hsn hp hh hst =>
    refine ⟨done, todo, .idle (by rw [hst]) (by rw [hst]) (.inl (Worker.sequence_of_handling (by rw [hv, hh]))), ?_⟩
    exact hs.same (by rw [hv, hp]) (by rw [hset, hsn]; simp) ha
  | file hp hn hr hsn hp' =>
    exact hs.begin hw hp hn (by rwa [hv]) (by rw [hv, hp']) (by rw [hset, hsn]; simp) ha
  | drop hp hf hsn hp' hh hst =>
    refine hs.drop hp ?_ hst (by rw [hv, hh]) (by rw [hv, hp']) (by rw [hset, hsn]; rfl) ha
    rcases hf with rfl | ⟨e, rfl⟩ <;> rfl
  | @keep p rest g hp hg hsn hp' hh hst =>
    have hq := Worker.sequence_of_handling (v := k'.worker) (w := k.worker) (by rw [hv, hh])
    rcases hs.settle hp (by rw [hv, hp']) (by rw [hset, hsn]; rfl) ha with ⟨hf, -⟩ | ⟨e, more, rfl, hs'⟩
    · rw [hs.no_file hp hf] at hg
      cases hg
    · exact ⟨_, more, .keep rfl hg hst hq, hs'⟩
  | forsake hp hn hr hsn hp' =>
    exact hs.forsake hw hp hn (by rwa [hv]) (by rw [hv, hp']) (by rw [hset, hsn]; rfl) ha
  | @lose p rest hp ho hsn hp' hh hst =>
    refine hs.drop hp (f := .abandoned .sendError) rfl ?_ (by rw [hv, hh]) (by rw [hv, hp']) (by rw [hset, hsn]; rfl) ha
    -- who does not own the directory has no files in it
    cases hg : p.file with
    | none => exact hst
    | some g =>
      have := hw.files p (by rw [hp]; exact List.mem_cons_self) (by rw [hg]; rfl)
      simp [Worker.owns, ho] at this
  | @stop sp retry hp ho hsn hp' hq hh hst =>
    obtain ⟨hfiles, hden⟩ := Storage.dispose_files sp.claim d.storage
    refine ⟨done, todo, .idle (by rw [hst, hfiles]) (by rw [hst, hden]) (.inl ?_), ?_⟩
    · simp [Worker.sequence, Worker.spillDir?, hv, hh, ho]
    · exact hs.same (by rw [hv, hp', hp]) (by rw [hset, hsn]; simp) ha

theorem Shift.filing (h : k.Shift d k' d') (hs : k.Sheet earlier done todo) (hw : k.worker.Housed dir) :
    ∃ done' todo', Filing dir d.clock.now d.storage d'.storage k.worker.sequence k'.worker.sequence done todo
      done' todo' ∧ k'.Sheet earlier done' todo' := by
  cases h with
  | work hx hv hd hset ha =>
    rw [hd]
    exact hs.work hw hx hv hset ha
  | rest hp hh hd hset ha =>
    refine ⟨done, todo, .idle (by rw [hd]) (by rw [hd]) (.inl (Worker.sequence_of_handling hh)), ?_⟩
    rcases hp with hp | hp
    · exact hs.same hp hset ha
    · exact hs.report hp hset ha
  | @accept e hp he hh hd hset ha =>
    exact ⟨done, _, .accept e hd (Worker.sequence_of_handling hh), hs.accept he hp hset ha⟩

end Desk

end Courier

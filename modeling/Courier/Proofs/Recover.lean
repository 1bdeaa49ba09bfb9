import Courier.Proofs.Lock
import Courier.Proofs.Sends

/-!
# What is found in the files

A worker that starts finds, in the order of their paths, the files of its directory that hold an envelope. The
others are removed.
-/

namespace Courier

/-- The envelope that these bytes hold, if they hold one with items. -/
def Envelope.filled? (data : Bytes) : Option Envelope :=
  match ofBytes data with
  | .error _ => none
  | .ok e => if e.isEmpty then none else some e

theorem Envelope.filled?_eq_some {data : Bytes} {e : Envelope} (h : filled? data = some e) :
    ofBytes data = .ok e ∧ e.isEmpty = false := by
  unfold filled? at h
  split at h
  · cases h
  · next he =>
    split at h
    · cases h
    · next hn => cases h; exact ⟨he, by simpa using hn⟩

namespace Storage

variable {fs fs' : Storage}

/-- Whether the file stands in this directory and has the name of a spilled envelope. -/
def onShelf (dir : Path) (file : Path) : Bool :=
  MemoryFiles.isIn dir file && file.extension? == some SpillDir.extension

def shelf (fs : Storage) (dir : Path) : List (Path × Bytes) := fs.files.files.filter (onShelf dir ·.1)

/-- The files are in order, and no operation on them is denied. -/
structure Fit (fs : Storage) : Prop where
  sorted : MemoryFiles.Sorted fs.files.files
  allowed : fs.denied = []

theorem list_shelf (ha : fs.denied = []) (dir : Path) :
    fs.list dir SpillDir.extension = .ok ((fs.shelf dir).map Prod.fst) := by
  simp only [list, refusal?, ha, List.contains_nil, Bool.false_eq_true, ite_false, MemoryFiles.list, shelf,
    List.filter_map]
  rfl

theorem read_of_mem (hf : fs.Fit) {x : Path × Bytes} (hx : x ∈ fs.files.files) : fs.read x.1 = .ok x.2 := by
  have hs : fs.files.files.find? (·.1.same x.1) = some x := by
    cases hy : fs.files.files.find? (·.1.same x.1) with
    | none => exact absurd x.1.same_refl (List.find?_eq_none.mp hy x hx)
    | some y =>
      rw [hf.sorted.unique (List.mem_of_find?_eq_some hy) hx (by simpa using List.find?_some hy)]
  simp only [read, refusal?, hf.allowed, List.contains_nil, Bool.false_eq_true, ite_false, MemoryFiles.read,
    MemoryFiles.find?, hs, Option.map_some]

theorem load?_of_mem (hf : fs.Fit) {x : Path × Bytes} (hx : x ∈ fs.files.files) :
    SpillDir.load? fs x.1 = Envelope.filled? x.2 := by
  rw [SpillDir.load?, read_of_mem hf hx]
  rfl

def without (fs : Storage) (file : Path) : Storage := { fs with files := fs.files.remove file }

theorem remove_some (ha : fs.denied = []) (file : Path) : SpillDir.remove fs (some file) = fs.without file := by
  simp [SpillDir.remove, Storage.remove, refusal?, ha, without]

theorem mem_without {file : Path} {x : Path × Bytes} :
    x ∈ (fs.without file).files.files ↔ x ∈ fs.files.files ∧ x.1.same file = false := by
  simp [without, MemoryFiles.remove]

theorem Fit.without (hf : fs.Fit) (file : Path) : (fs.without file).Fit := ⟨hf.sorted.filter _, hf.allowed⟩

theorem Fit.holding (hf : fs.Fit) (file : Path) (data : Bytes) : (fs.holding file data).Fit :=
  ⟨hf.sorted.insert file data, hf.allowed⟩

theorem Fit.put {h h' : Handling} {now : Timestamp} {e : Envelope} {r : Spilled} (hp : h.Put fs now e r h' fs')
    (hf : fs.Fit) : fs'.Fit := by
  cases hp with
  | refused => exact hf
  | wasted => exact hf
  | written => exact hf.holding _ _

theorem dispose_files (c : DirClaim Path) (fs : Storage) :
    (c.dispose fs).2.files.files = fs.files.files ∧ (c.dispose fs).2.denied = fs.denied := by
  unfold DirClaim.dispose
  split <;> exact ⟨rfl, rfl⟩

theorem Fit.dispose (hf : fs.Fit) (c : DirClaim Path) : (c.dispose fs).2.Fit :=
  ⟨by rw [(dispose_files c fs).1]; exact hf.sorted, by rw [(dispose_files c fs).2]; exact hf.allowed⟩

theorem Fit.removed (hf : fs.Fit) (file : Option Path) : (SpillDir.remove fs file).Fit := by
  cases file with
  | none => exact hf
  | some g => rw [remove_some hf.allowed]; exact hf.without g

/-- Of some of the files in order, those that hold an envelope are found, and the others are gone. -/
theorem loadAll_eq (hf : fs.Fit) {xs : List (Path × Bytes)} (hx : xs.Sublist fs.files.files) :
    (SpillDir.loadAll fs (xs.map Prod.fst)).1 = xs.filterMap (fun x => (Envelope.filled? x.2).map (·, x.1)) ∧
      ∃ files, (SpillDir.loadAll fs (xs.map Prod.fst)).2 = { fs with files := { fs.files with files := files } } ∧
        files.Sublist fs.files.files ∧
        ∀ y, y ∈ files ↔ y ∈ fs.files.files ∧ (y ∈ xs → (Envelope.filled? y.2).isSome = true) := by
  induction xs generalizing fs with
  | nil => exact ⟨rfl, fs.files.files, rfl, .refl _, by simp⟩
  | cons x xs ih =>
    have hm : x ∈ fs.files.files := hx.subset (by simp)
    have hs := (List.pairwise_cons.mp (hf.sorted.sublist hx)).1
    have hl := load?_of_mem hf hm
    rw [List.map_cons, SpillDir.loadAll]
    cases he : Envelope.filled? x.2 with
    | some e =>
      rw [he] at hl
      obtain ⟨hb, files, hfs, hsub, hmem⟩ := ih hf ((List.sublist_cons_self x xs).trans hx)
      refine ⟨by simp [hl, he, hb], files, by simp [hl, hfs], hsub, fun y => ?_⟩
      rw [hmem y, List.mem_cons]
      refine and_congr_right fun _ => ⟨fun h hy => ?_, fun h hy => h (.inr hy)⟩
      rcases hy with rfl | hy
      · simp [he]
      · exact h hy
    | none =>
      rw [he] at hl
      -- the paths are in strict order, so none of the others goes with this one
      have hxs : xs.Sublist (fs.without x.1).files.files := by
        have hk := ((List.sublist_cons_self x xs).trans hx).filter fun y => !y.1.same x.1
        rwa [List.filter_eq_self.mpr fun y hy => by simp [Path.not_same_of_after (hs y hy)]] at hk
      obtain ⟨hb, files, hfs, hsub, hmem⟩ := ih (hf.without x.1) hxs
      simp only [hl, remove_some hf.allowed]
      refine ⟨by simp [he, hb], files, by rw [hfs]; rfl, hsub.trans List.filter_sublist, fun y => ?_⟩
      rw [hmem y, mem_without, List.mem_cons]
      refine ⟨fun ⟨⟨hy, hn⟩, h⟩ => ⟨hy, fun hy' => ?_⟩, fun ⟨hy, h⟩ => ⟨⟨hy, ?_⟩, fun hy' => h (.inr hy')⟩⟩
      · rcases hy' with rfl | hy'
        · rw [y.1.same_refl] at hn; cases hn
        · exact h hy'
      · rw [Bool.eq_false_iff]
        intro hsame
        have h := h (.inl (hf.sorted.unique hy hm hsame))
        rw [hf.sorted.unique hy hm hsame, he] at h
        cases h

theorem mem_shelf {dir : Path} {x : Path × Bytes} :
    x ∈ fs.shelf dir ↔ x ∈ fs.files.files ∧ onShelf dir x.1 = true := List.mem_filter

theorem shelf_sorted (hf : fs.Fit) (dir : Path) : MemoryFiles.Sorted (fs.shelf dir) := hf.sorted.filter _

end Storage

namespace SpillDir

variable {s s' : SpillDir} {fs fs' : Storage} {backlog : List (Envelope × Path)}

/-- What a recovery finds, and what it leaves. -/
structure Recovered (s : SpillDir) (fs : Storage) (backlog : List (Envelope × Path)) (s' : SpillDir) (fs' : Storage) :
    Prop where
  backlog : backlog = (fs.shelf s.dir).filterMap fun x => (Envelope.filled? x.2).map (·, x.1)
  sequence : s' = s.resumed ((fs.shelf s.dir).map Prod.fst)
  files : fs'.files.files.Sublist fs.files.files
  mem : ∀ y, y ∈ fs'.files.files ↔
    y ∈ fs.files.files ∧ (Storage.onShelf s.dir y.1 = true → (Envelope.filled? y.2).isSome = true)
  frame : fs' = { fs with files := { fs.files with files := fs'.files.files } }

theorem recover_recovered (hf : fs.Fit) (h : s.recover fs = (backlog, s', fs')) :
    s.Recovered fs backlog s' fs' := by
  obtain ⟨hb, files, hfs, hsub, hmem⟩ := Storage.loadAll_eq hf (List.filter_sublist : (fs.shelf s.dir).Sublist _)
  rw [recover, Storage.list_shelf hf.allowed] at h
  cases h
  rw [show (loadAll fs ((fs.shelf s.dir).map Prod.fst)).2 = _ from hfs]
  refine ⟨hb, rfl, hsub, fun y => ?_, rfl⟩
  rw [hmem y, List.mem_filter]
  exact and_congr_right fun hy => ⟨fun h ho => h ⟨hy, ho⟩, fun h ho => h ho.2⟩

theorem Recovered.fit (hr : s.Recovered fs backlog s' fs') (hf : fs.Fit) : fs'.Fit :=
  ⟨hf.sorted.sublist hr.files, by rw [hr.frame]; exact hf.allowed⟩

theorem Recovered.pairwise (hr : s.Recovered fs backlog s' fs') (hf : fs.Fit) :
    backlog.Pairwise fun a b => a.2.before b.2 = true := by
  rw [hr.backlog]
  refine List.Pairwise.filterMap _ ?_ (Storage.shelf_sorted hf s.dir)
  intro x y hxy a ha b hb
  obtain ⟨e, -, rfl⟩ := Option.map_eq_some_iff.mp ha
  obtain ⟨f, -, rfl⟩ := Option.map_eq_some_iff.mp hb
  exact hxy

theorem Recovered.of_mem (hr : s.Recovered fs backlog s' fs') {b : Envelope × Path} (hb : b ∈ backlog) :
    ∃ data, (b.2, data) ∈ fs.shelf s.dir ∧ Envelope.filled? data = some b.1 := by
  rw [hr.backlog] at hb
  obtain ⟨⟨file, data⟩, hx, hb⟩ := List.mem_filterMap.mp hb
  obtain ⟨e, he, rfl⟩ := Option.map_eq_some_iff.mp hb
  exact ⟨data, hx, he⟩

end SpillDir

/-! ## Changes and starts -/

theorem Desk.Shift.fit {k k' : Desk} {d d' : Depot} (h : k.Shift d k' d') (hf : d.storage.Fit) : d'.storage.Fit := by
  cases h with
  | work hx hw hd =>
    rw [hd]
    cases hx with
    | stay _ _ _ hst => rw [hst]; exact hf
    | file _ _ hput => exact hf.put hput
    | drop _ _ _ _ _ hst => rw [hst]; exact hf.removed _
    | keep _ _ _ _ _ hst => rw [hst]; exact hf
    | forsake _ _ hput => exact hf.put hput
    | lose _ _ _ _ _ hst => rw [hst]; exact hf
    | stop _ _ _ _ _ _ hst => rw [hst]; exact hf.dispose _
  | rest _ _ hd => rw [hd]; exact hf
  | accept _ _ _ hd => rw [hd]; exact hf

theorem Desk.Shift.mem_parcels {k k' : Desk} {d d' : Depot} (h : k.Shift d k' d') {p : Parcel}
    (hp : p ∈ k'.worker.parcels) (hn : p.file = none) :
    p ∈ k.worker.parcels ∨ p.envelope = {} ∨ k'.accepted = k.accepted ++ [p.envelope] := by
  cases h with
  | work hx hw =>
    rw [hw] at hp
    refine .inl ?_
    cases hx with
    | stay _ hps => exact hps ▸ hp
    | @file q rest r hps hf _ _ hps' =>
      rw [hps'] at hp
      rw [hps]
      rcases List.mem_cons.mp hp with rfl | hp
      · -- nothing was written, so it is still the same parcel
        have hr : r.file? = none := hn
        rw [show ({ q with file := r.file? } : Parcel) = q by rw [hr, ← hf]]
        exact List.mem_cons_self
      · exact List.mem_cons_of_mem _ hp
    | drop hps _ _ hps' => rw [hps, ← hps']; exact List.mem_cons_of_mem _ hp
    | keep hps _ _ hps' => rw [hps, ← hps']; exact List.mem_cons_of_mem _ hp
    | forsake hps _ _ _ hps' => rw [hps, ← hps']; exact List.mem_cons_of_mem _ hp
    | lose hps _ _ hps' => rw [hps, ← hps']; exact List.mem_cons_of_mem _ hp
    | stop hps _ _ hps' => rw [hps, ← hps']; exact hp
  | rest hps =>
    rcases hps with hps | hps
    · exact .inl (hps ▸ hp)
    · rcases List.mem_append.mp (hps ▸ hp) with hp | hp
      · exact .inl hp
      · exact .inr (.inl (by rw [List.mem_singleton.mp hp]))
  | accept hps _ _ _ _ ha =>
    rcases List.mem_append.mp (hps ▸ hp) with hp | hp
    · exact .inl hp
    · exact .inr (.inr (by rw [ha, List.mem_singleton.mp hp]))

/-- What a worker finds in its files when it starts. -/
structure Worker.Found (fs : Storage) (w : Worker) (fs' : Storage) (found : List (Envelope × Path)) : Prop where
  parcels : w.parcels = found.map fun b => ⟨b.1, some b.2, false⟩
  order : found.Pairwise fun a b => a.2.before b.2 = true
  files : ∀ b ∈ found, ∃ data, (b.2, data) ∈ fs.files.files ∧ Envelope.ofBytes data = .ok b.1
  owns : found ≠ [] → w.owns = true
  fit : fs'.Fit
  subset : ∀ x ∈ fs'.files.files, x ∈ fs.files.files

theorem Worker.Started.found {settings : Settings} {fs fs' : Storage} {w : Worker} (h : Started settings fs w fs')
    (hf : fs.Fit) : ∃ found, w.Found fs fs' found := by
  have hps := parcels_fresh h.fresh
  cases h with
  | @owner dir claim fs₁ backlog spill _ hd ha hr =>
    obtain ⟨rfl, -, -, hfiles, hden⟩ := DirClaim.acquire_true ha
    have hf₁ : fs₁.Fit := ⟨by rw [hfiles]; exact hf.sorted, hden.trans hf.allowed⟩
    have hrec := SpillDir.recover_recovered hf₁ hr
    refine ⟨backlog, ?_, hrec.pairwise hf₁, fun b hb => ?_, fun _ => ?_, hrec.fit hf₁, fun x hx => ?_⟩
    · rw [hps, withBacklog_eq]
      rfl
    · obtain ⟨data, hx, he⟩ := hrec.of_mem hb
      exact ⟨data, hfiles ▸ (Storage.mem_shelf.mp hx).1, (Envelope.filled?_eq_some he).1⟩
    · rw [withBacklog_eq]
      simp [owns, ofSettings, (recover_claim hr).1]
    · exact hfiles ▸ hrec.files.subset hx
  | guest hd ha =>
    obtain ⟨rfl, -, -, hfiles, hden⟩ := DirClaim.acquire_false ha
    refine ⟨[], hps, .nil, by simp, by simp, ⟨by rw [hfiles]; exact hf.sorted, hden.trans hf.allowed⟩, ?_⟩
    exact fun x hx => hfiles ▸ hx

theorem Worker.Found.backlog {fs fs' : Storage} {w : Worker} {found : List (Envelope × Path)}
    (hf : w.Found fs fs' found) (hw : w.Fresh) : (Desk.opened w).backlog = found := by
  have hq := hf.parcels
  rw [parcels_fresh hw] at hq
  simp only [Desk.opened, hq, List.filterMap_map]
  exact List.filterMap_some

end Courier

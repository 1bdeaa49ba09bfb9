import Courier.Proofs.AtMostOnce
import Courier.Proofs.Once
import Courier.Proofs.Succession
import Courier.Proofs.Writes

/-!
# New names

The number in the name of a file is behind all numbers that were found at the start and behind all that were given
since, whatever the clock says, so that no file is written over another one. This holds as long as six digits suffice
for the numbers: after that they begin again at zero, and a file may be lost.
-/

namespace Courier

/-! ## Numbers in names -/

theorem SpillDir.sequence?_same {p q : Path} (h : p.same q = true) : sequence? p = sequence? q := by
  rw [sequence?, sequence?, Path.stem?, Path.stem?, Path.fileName?, Path.fileName?, Path.same_iff.mp h]

/-- The files of a directory have numbers below this one. -/
def Storage.Below (fs : Storage) (dir : Path) (q : UInt64) : Prop :=
  ∀ x ∈ fs.shelf dir, ∀ n, SpillDir.sequence? x.1 = some n → n < q

namespace Storage

variable {fs fs' : Storage} {dir : Path} {q q' : UInt64}

theorem Below.subset (h : fs.Below dir q) (hs : ∀ x ∈ fs'.files.files, x ∈ fs.files.files)
    (hq : q < SpillDir.modulus) (hn : q' = q ∨ q' = q + 1) : fs'.Below dir q' := by
  intro x hx n hseq
  obtain ⟨hm, ho⟩ := mem_shelf.mp hx
  exact Filed.next_lt hq hn (h x (mem_shelf.mpr ⟨hs x hm, ho⟩) n hseq)

theorem Below.holding (h : fs.Below dir q) (hf : fs.Fit) (hq : q < SpillDir.modulus) (now : Timestamp) (data : Bytes) :
    (fs.holding (dir.join (SpillDir.fileName now q)) data).Below dir (q + 1) := by
  intro x hx n hseq
  obtain ⟨hm, ho⟩ := mem_shelf.mp hx
  rcases MemoryFiles.mem_insert hf.sorted hm with ⟨hs, -⟩ | ⟨-, hm⟩
  · rw [SpillDir.sequence?_same hs, SpillDir.sequence?_join, SpillDir.mod_modulus hq] at hseq
    cases hseq
    simp only [UInt64.lt_iff_toNat_lt, UInt64.toNat_add, SpillDir.modulus] at hq ⊢
    simp at hq ⊢
    omega
  · exact Filed.next_lt hq (.inr rfl) (h x (mem_shelf.mpr ⟨hm, ho⟩) n hseq)

theorem Below.next_new (h : fs.Below dir q) (hq : q < SpillDir.modulus) (now : Timestamp) :
    ∀ x ∈ fs.files.files, x.1.same (dir.join (SpillDir.fileName now q)) = false := by
  intro x hm
  rw [Bool.eq_false_iff]
  intro hs
  have hseq := SpillDir.sequence?_same hs
  rw [SpillDir.sequence?_join, SpillDir.mod_modulus hq] at hseq
  exact absurd (h x (mem_shelf.mpr ⟨hm, onShelf_of_same hs⟩) q hseq) (UInt64.lt_irrefl q)

theorem find?_of_new {g : Path} (h : ∀ x ∈ fs.files.files, x.1.same g = false) : fs.files.find? g = none := by
  rw [MemoryFiles.find?, List.find?_eq_none.mpr fun x hx => by simp [h x hx]]
  rfl

theorem mem_write {g : Path} (h : ∀ x ∈ fs.files.files, x.1.same g = false) (data : Bytes) :
    ∀ x ∈ fs.files.files, x ∈ (fs.write g data).2.files.files := by
  intro x hx
  rcases hw : fs.write g data with ⟨er | u, fs'⟩
  · rw [write_error hw]
    exact hx
  · cases u
    rw [write_ok hw]
    exact (MemoryFiles.insert_perm data h).mem_iff.mpr (List.mem_cons_of_mem _ hx)

end Storage

/-! ## A desk -/

namespace Desk

variable {k k' : Desk} {d d' : Depot} {dir : Path}

/-- The number that comes next goes on by one at most, and with it comes a file of that number at most. -/
theorem Shift.numbers (h : k.Shift d k' d') (hw : k.worker.Housed dir) :
    ((k'.worker.sequence = k.worker.sequence ∨ k'.worker.sequence = k.worker.sequence + 1) ∧
        ∀ x ∈ d'.storage.files.files, x ∈ d.storage.files.files) ∨
      k'.worker.sequence = k.worker.sequence + 1 ∧
        ∃ data, d'.storage = d.storage.holding (dir.join (SpillDir.fileName d.clock.now k.worker.sequence)) data := by
  -- numbers are given out only where an envelope is put into a file
  have hput {e : Envelope} {r : Spilled} {fs' : Storage}
      (hr : k.worker.handling.Put d.storage d.clock.now e r k'.worker.handling fs') (hd : d'.storage = fs') :
      ((k'.worker.sequence = k.worker.sequence ∨ k'.worker.sequence = k.worker.sequence + 1) ∧
          ∀ x ∈ d'.storage.files.files, x ∈ d.storage.files.files) ∨
        k'.worker.sequence = k.worker.sequence + 1 ∧
          ∃ data, d'.storage = d.storage.holding (dir.join (SpillDir.fileName d.clock.now k.worker.sequence)) data := by
    rcases hw.put_cases hr with ⟨-, rfl, hq⟩ | ⟨g, -, -, rfl, rfl, hq⟩
    · exact .inl ⟨hq, by rw [hd]; exact fun _ => id⟩
    · exact .inr ⟨hq, _, hd⟩
  cases h with
  | work hx hv hd =>
    cases hx with
    | stay _ _ hh hst =>
      exact .inl ⟨.inl (Worker.sequence_of_handling (by rw [hv, hh])), by rw [hd, hst]; exact fun _ => id⟩
    | file _ _ hr => exact hput (by rwa [hv]) hd
    | drop _ _ _ _ hh hst =>
      refine .inl ⟨.inl (Worker.sequence_of_handling (by rw [hv, hh])), ?_⟩
      rw [hd, hst]
      exact fun _ hx => (Worker.remove_sublist _ _).subset hx
    | keep _ _ _ _ hh hst =>
      exact .inl ⟨.inl (Worker.sequence_of_handling (by rw [hv, hh])), by rw [hd, hst]; exact fun _ => id⟩
    | forsake _ _ hr => exact hput (by rwa [hv]) hd
    | lose _ _ _ _ hh hst =>
      exact .inl ⟨.inl (Worker.sequence_of_handling (by rw [hv, hh])), by rw [hd, hst]; exact fun _ => id⟩
    | @stop s retry _ ho _ _ _ hh hst =>
      refine .inl ⟨.inl (by simp [Worker.sequence, Worker.spillDir?, hv, hh, ho]), ?_⟩
      rw [hd, hst, (Storage.dispose_files s.claim d.storage).1]
      exact fun _ => id
  | rest _ hh hd => exact .inl ⟨.inl (Worker.sequence_of_handling hh), by rw [hd]; exact fun _ => id⟩
  | accept _ _ hh hd => exact .inl ⟨.inl (Worker.sequence_of_handling hh), by rw [hd]; exact fun _ => id⟩

theorem Shift.below (h : k.Shift d k' d') (hw : k.worker.Housed dir) (hf : d.storage.Fit)
    (hq : k.worker.sequence < SpillDir.modulus) (hb : d.storage.Below dir k.worker.sequence) :
    d'.storage.Below dir k'.worker.sequence := by
  rcases h.numbers hw with ⟨hn, hs⟩ | ⟨hn, data, hs⟩
  · exact hb.subset hs hq hn
  · rw [hn, hs]
    exact hb.holding hf hq _ data

end Desk

/-! ## A start -/

theorem SpillDir.resumed_below (s : SpillDir) {files : List Path}
    (hn : ∀ file ∈ files, ∀ n, sequence? file = some n → n.toNat + 1 < 10 ^ 6) :
    ∀ file ∈ files, ∀ n, sequence? file = some n → n < (s.resumed files).sequence := by
  intro file hfile n hseq
  have hm := List.mem_filterMap.mpr ⟨file, hfile, hseq⟩
  unfold resumed
  split
  · next last hlast =>
    obtain ⟨hmem, hmax⟩ := List.max?_eq_some_iff.mp hlast
    obtain ⟨file', hfile', hseq'⟩ := List.mem_filterMap.mp hmem
    have hle := UInt64.le_iff_toNat_le.mp (hmax n hm)
    have hlt := hn file' hfile' last hseq'
    simp only [UInt64.lt_iff_toNat_lt, UInt64.toNat_mod, UInt64.toNat_add, modulus]
    simp
    omega
  · next hnone =>
    rw [List.max?_eq_none_iff.mp hnone] at hm
    cases hm

theorem Worker.Started.below {settings : Settings} {w : Worker} {fs fs' : Storage} {dir : String}
    (h : Started settings fs w fs') (hd : settings.cacheDir = some dir) (hf : fs.Fit) (ho : w.owns = true)
    (hn : ∀ x ∈ fs.shelf ⟨dir⟩, ∀ n, SpillDir.sequence? x.1 = some n → n.toNat + 1 < 10 ^ 6) :
    fs'.Fit ∧ fs'.Below ⟨dir⟩ w.sequence := by
  cases h with
  | guest _ ha =>
    obtain ⟨rfl, -⟩ := DirClaim.acquire_false ha
    cases ho
  | @owner dir' claim fs₁ backlog spill _ hd' ha hr =>
    cases hd.symm.trans hd'
    obtain ⟨rfl, -, -, hfiles, hden⟩ := DirClaim.acquire_true ha
    have hf₁ : fs₁.Fit := ⟨by rw [hfiles]; exact hf.sorted, hden.trans hf.allowed⟩
    have hrec := SpillDir.recover_recovered hf₁ hr
    have hseq : ((ofSettings settings (.durable spill settings.retry)).withBacklog backlog).sequence =
        spill.sequence := by
      rw [withBacklog_eq]
      rfl
    refine ⟨hrec.fit hf₁, ?_⟩
    rw [hseq, hrec.sequence]
    intro x hx n hnum
    obtain ⟨hm, hshelf⟩ := Storage.mem_shelf.mp hx
    have hm₁ := (hrec.mem x).mp hm
    refine SpillDir.resumed_below _ (fun file hfile => ?_) x.1 ?_ n hnum
    · obtain ⟨y, hy, rfl⟩ := List.mem_map.mp hfile
      exact hn y (by rwa [Storage.shelf, hfiles] at hy)
    · exact List.mem_map_of_mem (Storage.mem_shelf.mpr ⟨hm₁.1, hshelf⟩)

/-! ## A run -/

namespace Office

/-- The only worker has a directory, and all numbers in it are below the one that comes next. -/
structure Numbered (dir : Path) (start : Nat) (s : Office) (k : Desk) : Prop where
  desks : s.desks = [k]
  sound : k.worker.Sound
  housed : k.worker.Housed dir
  fit : s.depot.storage.Fit
  below : s.depot.storage.Below dir k.worker.sequence
  names : k.worker.sequence.toNat ≤ start + s.names

variable {first s t : Office} {dir : Path} {k : Desk} {start : Nat}

theorem Numbered.sequence_lt (h : s.Numbered dir start k) (hb : start + s.names < 10 ^ 6) :
    k.worker.sequence < SpillDir.modulus :=
  UInt64.lt_iff_toNat_lt.mpr (Nat.lt_of_le_of_lt h.names hb)

theorem Numbered.next {e : Event} (h : s.Numbered dir start k) (he : e.isStart = false)
    (hb : start + s.names < 10 ^ 6) (ht : s.after? e = some t) : ∃ k', t.Numbered dir start k' := by
  cases e with
  | desk i a =>
    obtain ⟨b, k', hk, hc, hd, hn⟩ := after?_desk ht
    rw [h.desks] at hk
    cases i with
    | succ i => cases hk
    | zero =>
      cases hk
      have hle := sequence_le k.worker.sequence k'.worker.sequence
      have hnames := h.names
      refine ⟨k', by rw [hd, h.desks]; rfl, hc.sound h.sound, (hc.housed h.housed h.sound).1, hc.shift.fit h.fit, ?_,
        by omega⟩
      exact hc.shift.below h.housed h.fit (h.sequence_lt hb) h.below
  | clock n => cases ht; exact ⟨k, h.desks, h.sound, h.housed, h.fit, h.below, h.names⟩
  | failWrites on =>
    cases ht
    exact ⟨k, h.desks, h.sound, h.housed, ⟨h.fit.sorted, h.fit.allowed⟩, h.below, h.names⟩
  | start durable settings => cases he

theorem Reach.numbered (hr : Reach (fun _ e => e.isStart = false) first s) (h : first.Numbered dir start k)
    (hb : start + s.names < 10 ^ 6) : ∃ k', s.Numbered dir start k' := by
  induction hr with
  | refl => exact ⟨k, h⟩
  | next e _ he ht ih =>
    have hle := names_le ht
    obtain ⟨k', hk'⟩ := ih (by omega)
    exact hk'.next he (by omega) ht

/-- A worker starts on a directory with any files in it and has its lock. As long as the numbers do not begin again at
zero, neither at the start nor later, no file that it hands to the storage was there, whatever the clock says, and so
no file is lost in that step. -/
theorem spill_new {dir : String} {settings : Settings} {w : Worker} {fs : Storage} {file : Path}
    (hd : first.desks = []) (hf : first.depot.storage.Fit) (hdir : settings.cacheDir = some dir)
    (hw : Worker.startDurable settings first.depot.storage = (.ok w, fs)) (ho : w.owns = true)
    (hn : ∀ x ∈ first.depot.storage.shelf ⟨dir⟩, ∀ n, SpillDir.sequence? x.1 = some n → n.toNat + 1 < 10 ^ 6)
    (hr : Reach (fun _ e => e.isStart = false) (first.started true settings) s) (hk : k ∈ s.desks)
    (hb : w.sequence.toNat + s.names < 10 ^ 6) (ht : k.worker.target? s.depot = some file) :
    s.depot.storage.files.find? file = none ∧
      ∀ x, k.worker.step? s.depot = some x → ∀ y ∈ s.depot.storage.files.files, y ∈ x.depot.storage.files.files := by
  have hst := Worker.startDurable_started hw
  obtain ⟨hfit, hbelow⟩ := hst.below hdir hf ho hn
  have hfirst : (first.started true settings).Numbered ⟨dir⟩ w.sequence.toNat (.opened w) := by
    refine ⟨by simp [started, hw, hd], hst.fresh.sound, (hst.lock hdir).1, ?_, ?_, Nat.le_add_right _ _⟩
    · simpa [started, hw] using hfit
    · simpa [started, hw, Desk.opened] using hbelow
  obtain ⟨k', h⟩ := hr.numbered hfirst hb
  rw [h.desks] at hk
  cases List.mem_singleton.mp hk
  have hnew : ∀ x ∈ s.depot.storage.files.files, x.1.same file = false := by
    rw [h.housed.target?_eq ht]
    exact h.below.next_new (h.sequence_lt hb) _
  refine ⟨Storage.find?_of_new hnew, fun x hx => ?_⟩
  cases (Worker.step?_move hx).writes with
  | nothing hnone => rw [ht] at hnone; cases hnone
  | target hp ht' hs =>
    cases ht.symm.trans ht'
    rw [hs]
    exact Storage.mem_write hnew _

/-- Files of this millisecond with these numbers, each with an envelope that is tagged with the number. -/
def leftovers (numbers : List UInt64) : Office where
  depot :=
    { clock := ⟨⟨1700000000000⟩⟩
      storage := { files :=
        { dirs := [⟨"cache"⟩]
          files := numbers.map fun n =>
            ((⟨"cache"⟩ : Path).join (SpillDir.fileName ⟨1700000000000⟩ n), (tagged n).toBytes) } } }

/-- A worker that keeps what it has found, and is about to put an envelope of its own into a file. -/
def leavingRun : List Event :=
  [.desk 0 (.offer (tagged 7) none), .desk 0 (.call .shutdown), .desk 0 (.look 0 0), .desk 0 .step, .desk 0 .step,
    .desk 0 .step]

theorem spill_new_leavingRun :
    ∃ w fs s k file,
      Worker.startDurable sharing (leftovers [3, 5]).depot.storage = (.ok w, fs) ∧
      ((leftovers [3, 5]).started true sharing).run? (fun _ e => e.isStart = false) leavingRun = some s ∧
      k ∈ s.desks ∧ k.worker.target? s.depot = some file ∧ s.depot.storage.files.files.length = 2 ∧
      s.depot.storage.files.find? file = none ∧
      ∀ x, k.worker.step? s.depot = some x → ∀ y ∈ s.depot.storage.files.files, y ∈ x.depot.storage.files.files := by
  have hstart : (match Worker.startDurable sharing (leftovers [3, 5]).depot.storage with
      | (.ok w, _) => some (w.owns, w.sequence)
      | (.error _, _) => none) = some (true, 6) := by decide +kernel
  have hrun : (((leftovers [3, 5]).started true sharing).run? (fun _ e => e.isStart = false) leavingRun).map (fun s =>
      (s.names, s.depot.storage.files.files.length, s.desks.map fun k => (k.worker.target? s.depot).isSome)) =
      some (0, 2, [true]) := by decide +kernel
  have hempty : (leftovers [3, 5]).desks = [] := rfl
  have hsort : MemoryFiles.Sorted (leftovers [3, 5]).depot.storage.files.files := by
    simp only [MemoryFiles.Sorted]
    decide +kernel
  have hn : ∀ x ∈ (leftovers [3, 5]).depot.storage.shelf ⟨"cache"⟩, ∀ n, SpillDir.sequence? x.1 = some n →
      n.toNat + 1 < 10 ^ 6 := by
    have : ∀ x ∈ (leftovers [3, 5]).depot.storage.shelf ⟨"cache"⟩,
        ((SpillDir.sequence? x.1).map fun n => decide (n.toNat + 1 < 10 ^ 6)) = some true := by decide +kernel
    intro x hx n hseq
    simpa [hseq] using this x hx
  rcases hw : Worker.startDurable sharing (leftovers [3, 5]).depot.storage with ⟨e | w, fs⟩
  · simp [hw] at hstart
  · simp only [hw, Option.some.injEq, Prod.mk.injEq] at hstart
    obtain ⟨s, hs, hx⟩ := Option.map_eq_some_iff.mp hrun
    simp only [Prod.mk.injEq] at hx
    obtain ⟨hnames, hlen, hk⟩ := hx
    obtain ⟨k, hk, htarget⟩ := List.map_eq_singleton_iff.mp hk
    obtain ⟨file, ht⟩ := Option.isSome_iff_exists.mp htarget
    have hmem : k ∈ s.desks := by simp [hk]
    obtain ⟨hnew, hkeep⟩ := spill_new hempty ⟨hsort, rfl⟩ rfl hw hstart.1 hn (.of_run? hs) hmem
      (by rw [hstart.2, hnames]; decide) ht
    exact ⟨w, fs, s, k, file, rfl, hs, hmem, ht, hlen, hnew, hkeep⟩

/-- Behind the greatest number comes zero: the next envelope takes the place of one that waits. -/
theorem spill_overwrites :
    ∃ w fs s k file x,
      Worker.startDurable sharing (leftovers [0, 999999]).depot.storage = (.ok w, fs) ∧ w.owns = true ∧
      ((leftovers [0, 999999]).started true sharing).run? (fun _ e => e.isStart = false) leavingRun = some s ∧
      s.desks = [k] ∧ k.worker.target? s.depot = some file ∧
      s.depot.storage.files.find? file = some (tagged 0).toBytes ∧ k.worker.step? s.depot = some x ∧
      x.depot.storage.files.find? file = some (tagged 7).toBytes := by
  have hstart : (match Worker.startDurable sharing (leftovers [0, 999999]).depot.storage with
      | (.ok w, _) => w.owns
      | (.error _, _) => false) = true := by decide +kernel
  have hrun : (((leftovers [0, 999999]).started true sharing).run? (fun _ e => e.isStart = false) leavingRun).bind
      (fun s => s.desks.head?.bind fun k => (k.worker.target? s.depot).bind fun file =>
        (k.worker.step? s.depot).map fun x =>
          (s.desks.length, s.depot.storage.files.find? file, x.depot.storage.files.find? file)) =
      some (1, some (tagged 0).toBytes, some (tagged 7).toBytes) := by decide +kernel
  rcases hw : Worker.startDurable sharing (leftovers [0, 999999]).depot.storage with ⟨e | w, fs⟩
  · simp [hw] at hstart
  · obtain ⟨s, hs, hrun⟩ := Option.bind_eq_some_iff.mp hrun
    obtain ⟨k, hk, hrun⟩ := Option.bind_eq_some_iff.mp hrun
    obtain ⟨file, ht, hrun⟩ := Option.bind_eq_some_iff.mp hrun
    obtain ⟨x, hx, he⟩ := Option.map_eq_some_iff.mp hrun
    simp only [Prod.mk.injEq] at he
    obtain ⟨hlen, hbefore, hafter⟩ := he
    have hd : s.desks = [k] := by
      obtain ⟨k', hk'⟩ := List.length_eq_one_iff.mp hlen
      rw [hk'] at hk
      cases hk
      exact hk'
    exact ⟨w, fs, s, k, file, x, rfl, by simpa [hw] using hstart, hs, hd, ht, hbefore, hx, hafter⟩

end Office

end Courier

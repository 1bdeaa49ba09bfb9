import Courier.Proofs.Serial
import Courier.Proofs.Wire
import Mathlib.Data.List.Perm.Subperm

/-!
# A directory taken over

Who starts on a directory that nobody has finds what stands in its files, each envelope as it is read. If all of
them can be read, no file is touched, and the sequence of names goes on behind them.
-/

namespace Courier

/-! ## Envelopes that can be read -/

namespace Envelope

/-- An envelope whose wire form can be read. -/
structure Legible (e : Envelope) : Prop where
  sized : e.Sized
  readable : ∃ f, ofBytes e.toBytes = .ok f

def reread (e : Envelope) : Envelope :=
  match ofBytes e.toBytes with
  | .ok f => f
  | .error _ => e

variable {e : Envelope}

theorem Legible.ofBytes (he : e.Legible) : ofBytes e.toBytes = .ok e.reread := by
  obtain ⟨f, hf⟩ := he.readable
  rw [reread, hf]

theorem Legible.echo (he : e.Legible) : e.Echo e.reread := ofBytes_toBytes_echo he.sized he.ofBytes

theorem Echo.isEmpty {f : Envelope} (h : e.Echo f) : f.isEmpty = e.isEmpty := by
  have hl := h.items.length_eq
  rw [Envelope.isEmpty, Envelope.isEmpty, Bool.eq_iff_iff, List.isEmpty_iff_length_eq_zero,
    List.isEmpty_iff_length_eq_zero, hl]

theorem Legible.filled? (he : e.Legible) (hn : e.isEmpty = false) : filled? e.toBytes = some e.reread := by
  rw [Envelope.filled?, he.ofBytes]
  simp [he.echo.isEmpty, hn]

theorem Plain.legible (he : e.Plain) : e.Legible := ⟨he.sized, e.wireForm, ofBytes_toBytes_plain he⟩

theorem Formed.legible (he : e.Formed) : e.Legible := ⟨he.sized, ofBytes_toBytes_formed he⟩

theorem Plain.reread (he : e.Plain) : e.reread = e.wireForm := by
  rw [Envelope.reread, ofBytes_toBytes_plain he]

end Envelope

/-! ## The shelf, all of it -/

theorem exists_map_of_perm {α β : Type} {f : α → β} {l l' : List β} (h : l.Perm l') :
    ∀ {xs : List α}, xs.map f = l' → ∃ ys : List α, ys.Perm xs ∧ l = ys.map f := by
  induction h with
  | nil => exact fun hx => ⟨[], by rw [List.map_eq_nil_iff.mp hx], rfl⟩
  | cons b _ ih =>
    intro xs hx
    obtain ⟨x, xs, rfl, rfl, hxs⟩ := List.map_eq_cons_iff.mp hx
    obtain ⟨ys, hp, rfl⟩ := ih hxs
    exact ⟨x :: ys, hp.cons x, rfl⟩
  | swap b c _ =>
    intro xs hx
    obtain ⟨x, _, rfl, rfl, hxs⟩ := List.map_eq_cons_iff.mp hx
    obtain ⟨y, ys, rfl, rfl, rfl⟩ := List.map_eq_cons_iff.mp hxs
    exact ⟨y :: x :: ys, .swap .., rfl⟩
  | trans _ _ ih₁ ih₂ =>
    intro xs hx
    obtain ⟨ys, hp, hy⟩ := ih₂ hx
    obtain ⟨zs, hq, hz⟩ := ih₁ hy.symm
    exact ⟨zs, hq.trans hp, hz⟩

instance instLawfulOrderMaxUInt64 : Std.LawfulOrderMax UInt64 :=
  .of_max_le_iff
    (fun a b c => by
      show (if a ≤ b then b else a) ≤ c ↔ a ≤ c ∧ b ≤ c
      split <;> grind)
    (fun a b => by
      show (if a ≤ b then b else a) = a ∨ (if a ≤ b then b else a) = b
      split <;> simp)

namespace SpillDir

variable {s s' : SpillDir} {fs fs' : Storage} {backlog : List (Envelope × Path)}

theorem Recovered.files_eq (hr : s.Recovered fs backlog s' fs') (hf : fs.Fit)
    (hall : ∀ x ∈ fs.shelf s.dir, (Envelope.filled? x.2).isSome = true) : fs'.files.files = fs.files.files := by
  have hnodup : fs.files.files.Nodup := hf.sorted.imp fun hb he => by
    rw [he] at hb
    have := Path.not_same_of_before hb
    rw [Path.same_refl] at this
    cases this
  have hsub : fs.files.files ⊆ fs'.files.files := fun y hy =>
    (hr.mem y).mpr ⟨hy, fun ho => hall y (Storage.mem_shelf.mpr ⟨hy, ho⟩)⟩
  exact hr.files.eq_of_length_le (List.subperm_of_subset hnodup hsub).length_le

/-- The sequence goes on behind all names, and is not ahead of what was given. -/
theorem resumed_sequence {files : List Path} {q : UInt64} (hs : s.sequence = 0) (hq : q < modulus)
    (hn : ∀ file ∈ files, ∃ n, sequence? file = some n ∧ n < q) :
    (s.resumed files).sequence ≤ q ∧ ∀ file ∈ files, ∀ n, sequence? file = some n → n < (s.resumed files).sequence := by
  unfold resumed
  split
  · next last hm =>
    obtain ⟨hmem, hmax⟩ := List.max?_eq_some_iff.mp hm
    obtain ⟨file, hfile, hlast⟩ := List.mem_filterMap.mp hmem
    obtain ⟨n, hn', hlt⟩ := hn file hfile
    cases hlast.symm.trans hn'
    have hnext : (last + 1) % modulus = last + 1 ∧ last + 1 ≤ q ∧ last < last + 1 := by
      simp only [← UInt64.toNat_inj, UInt64.lt_iff_toNat_lt, UInt64.le_iff_toNat_le, UInt64.toNat_mod,
        UInt64.toNat_add, modulus] at hq hlt ⊢
      simp at hq hlt ⊢
      omega
    rw [hnext.1]
    refine ⟨hnext.2.1, fun f hf m hm' => ?_⟩
    exact UInt64.lt_of_le_of_lt (hmax m (List.mem_filterMap.mpr ⟨f, hf, hm'⟩)) hnext.2.2
  · next hm =>
    have hnil := List.max?_eq_none_iff.mp hm
    refine ⟨by rw [hs]; exact UInt64.zero_le, fun f hf n hn' => ?_⟩
    have := List.mem_filterMap.mpr ⟨f, hf, hn'⟩
    rw [hnil] at this
    cases this

end SpillDir

/-! ## Starts -/

/-- These envelopes were found in their files and wait to be handled. -/
def todoOf (xs : List (Envelope × Path)) : Todo := xs.map fun x => (x.1, ⟨x.1.reread, some x.2, false⟩)

@[simp] theorem places_todoOf (xs : List (Envelope × Path)) : places [] (todoOf xs) = xs := by
  simp [todoOf, places, placesDone, placesTodo, List.filterMap_map]

/-- What a worker has found is all that stands in the files. -/
structure Worker.Takes (steady : Prop) (dir : Path) (now : Timestamp) (w : Worker) (fs : Storage)
    (xs : List (Envelope × Path)) : Prop where
  queue : w.queue = xs.map fun x => ⟨x.1.reread, some x.2, false⟩
  filed : Filed steady dir now w.sequence fs xs
  order : xs.Pairwise fun a b => a.2.before b.2 = true

section
variable {steady : Prop} {dir : Path} {now : Timestamp} {fs fs' : Storage} {q : UInt64}
variable {xs : List (Envelope × Path)}

theorem SpillDir.Recovered.takes {s s' : SpillDir} {backlog : List (Envelope × Path)}
    (hr : s.Recovered fs backlog s' fs') (hs : s.sequence = 0) (hf : Filed steady s.dir now q fs xs) (hq : q < modulus)
    (hx : ∀ x ∈ xs, x.1.isEmpty = false ∧ x.1.Legible) :
    ∃ ys, ys.Perm xs ∧ backlog = ys.map (fun x => (x.1.reread, x.2)) ∧ Filed steady s.dir now s'.sequence fs' ys ∧
      s'.sequence ≤ q ∧ ys.Pairwise fun a b => a.2.before b.2 = true := by
  obtain ⟨ys, hp, hy⟩ := exists_map_of_perm hf.shelf rfl
  have hfill : ∀ x ∈ ys, Envelope.filled? (entry x).2 = some x.1.reread := fun x hm =>
    let ⟨hn, hl⟩ := hx x (hp.mem_iff.mp hm)
    hl.filled? hn
  have hall : ∀ x ∈ fs.shelf s.dir, (Envelope.filled? x.2).isSome = true := by
    intro x hx
    rw [hy] at hx
    obtain ⟨y, hm, rfl⟩ := List.mem_map.mp hx
    rw [hfill y hm]
    rfl
  -- no name has the number `q` or a greater one, so the number that is resumed is not beyond `q`
  have hnames : ∀ x ∈ ys, ∃ t n, x.2 = s.dir.join (fileName t n) ∧ n < q ∧ (steady → t.millis ≤ now.millis) ∧
      sequence? x.2 = some n := by
    intro x hm
    obtain ⟨t, n, hn, hlt, hle⟩ := hf.named x (hp.mem_iff.mp hm)
    refine ⟨t, n, hn, hlt, hle, ?_⟩
    rw [hn, sequence?_join, Option.some_inj, ← UInt64.toNat_inj, UInt64.toNat_mod]
    exact Nat.mod_eq_of_lt (UInt64.lt_iff_toNat_lt.mp (UInt64.lt_trans hlt hq))
  have hshelf : (fs.shelf s.dir).map Prod.fst = ys.map Prod.snd := by
    rw [hy, List.map_map]
    rfl
  obtain ⟨hle, hlt⟩ := resumed_sequence hs hq (by
    intro file hfile
    obtain ⟨x, hm, rfl⟩ := List.mem_map.mp hfile
    obtain ⟨t, n, -, hlt, -, hn⟩ := hnames x hm
    exact ⟨n, hn, hlt⟩)
  rw [← hshelf, ← hr.sequence] at hle hlt
  have hfiles := hr.files_eq hf.fit hall
  refine ⟨ys, hp, ?_, ⟨hr.fit hf.fit, ?_, fun x hm => ?_⟩, hle, ?_⟩
  · rw [hr.backlog, hy, List.filterMap_map, ← List.filterMap_eq_map]
    exact List.filterMap_congr fun x hm => by rw [Function.comp_apply, hfill x hm]; rfl
  · rw [Storage.shelf, hfiles, ← Storage.shelf, hy]
  · obtain ⟨t, n, hn, -, hle', hseq⟩ := hnames x hm
    exact ⟨t, n, hn, hlt x.2 (by rw [hshelf]; exact List.mem_map_of_mem hm) n hseq, hle'⟩
  · have hsort := Storage.shelf_sorted hf.fit s.dir
    rw [hy] at hsort
    exact List.pairwise_map.mp hsort

/-- Who starts on a directory that nobody has takes over all that stands in it. -/
theorem Worker.Started.takes {settings : Settings} {w : Worker} {dir : String} (h : Started settings fs w fs')
    (hd : settings.cacheDir = some dir) (hl : fs.files.isLocked (DirClaim.lockPath ⟨dir⟩) = false)
    (hf : Filed steady ⟨dir⟩ now q fs xs) (hq : q < SpillDir.modulus)
    (hx : ∀ x ∈ xs, x.1.isEmpty = false ∧ x.1.Legible) :
    ∃ ys, ys.Perm xs ∧ w.Takes steady ⟨dir⟩ now fs' ys ∧ w.sequence ≤ q := by
  cases h with
  | @owner dir' claim fs₁ backlog spill _ hd' ha hr =>
    cases hd.symm.trans hd'
    obtain ⟨rfl, -, -, hfiles, hden⟩ := DirClaim.acquire_true ha
    have hf₁ := hf.advance hq (.inl rfl) hfiles hden
    obtain ⟨ys, hp, rfl, hfy, hle, hsort⟩ := (SpillDir.recover_recovered hf₁.fit hr).takes rfl hf₁ hq hx
    rw [withBacklog_eq]
    refine ⟨ys, hp, ⟨?_, hfy, hsort⟩, hle⟩
    simp [ofSettings, Function.comp_def]
  | guest hd' ha =>
    cases hd.symm.trans hd'
    have hl' := (DirClaim.acquire_false ha).2.1
    rw [hl] at hl'
    cases hl'

theorem Worker.Takes.sheet {w : Worker} (ht : w.Takes steady dir now fs xs) (hw : w.Fresh)
    (hx : ∀ x ∈ xs, x.1.isEmpty = false ∧ x.1.Legible) :
    (Desk.opened w).Sheet (xs.map Prod.fst) [] (todoOf xs) := by
  have hps : (Desk.opened w).worker.parcels = xs.map fun x => ⟨x.1.reread, some x.2, false⟩ :=
    (parcels_fresh hw).trans ht.queue
  have hfill : ∀ x ∈ xs, x.1.reread.isEmpty = false := fun x hm => by
    rw [(hx x hm).2.echo.isEmpty]
    exact (hx x hm).1
  refine ⟨rfl, ?_, ?_, by simp, ?_, ?_⟩
  · rw [hps, todoOf, List.map_map, List.filter_eq_self.mpr]
    · rfl
    · intro p hp
      obtain ⟨x, hm, rfl⟩ := List.mem_map.mp hp
      simp [Parcel.filled, hfill x hm]
  · simp [todoOf, Desk.opened, Function.comp_def]
  · intro y hy
    obtain ⟨x, hm, rfl⟩ := List.mem_map.mp hy
    exact .inr ⟨rfl, (hx x hm).2.ofBytes⟩
  · intro p hp _
    rw [hps] at hp
    obtain ⟨x, hm, rfl⟩ := List.mem_map.mp hp
    simp [Parcel.filled, hfill x hm]

theorem Worker.Takes.backlog {w : Worker} (ht : w.Takes steady dir now fs xs) :
    (Desk.opened w).backlog = xs.map fun x => (x.1.reread, x.2) := by
  simp only [Desk.opened, ht.queue, List.filterMap_map]
  exact congrFun (List.filterMap_eq_map (f := fun x : Envelope × Path => (x.1.reread, x.2))) xs

theorem Worker.Takes.orderly {w : Worker} (ht : w.Takes steady dir now fs xs) : Orderly [] (todoOf xs) :=
  ⟨by simpa using ht.order, List.pairwise_map.mpr (ht.order.imp fun _ _ => rfl)⟩

end

end Courier

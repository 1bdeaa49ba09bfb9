import Courier.Proofs.Names
import Courier.Proofs.Sheet

/-!
# The shelf

The files of a directory are those that the sheet tells of, each with the wire form of the envelope that was
accepted. Where the clock does not go back, they are in the order in which the envelopes were accepted.
-/

namespace Courier

/-! ## Paths that are the same -/

theorem Path.isIn_of_parts {dir p : Path} {s : String} (h : p.parts = dir.parts ++ [.name s]) :
    MemoryFiles.isIn dir p = true := by
  obtain ⟨q, hq, hps, -⟩ := Path.parent?_of_parts h fun _ => nofun
  rw [MemoryFiles.isIn, hq]
  exact Path.same_iff.mpr hps

namespace Storage

variable {fs : Storage} {dir : Path}

theorem onShelf_of_same {p : Path} {t : Timestamp} {q : UInt64}
    (h : p.same (dir.join (SpillDir.fileName t q)) = true) : onShelf dir p = true := by
  have hp := Path.same_iff.mp h
  have he : p.extension? = some SpillDir.extension := by
    rw [← SpillDir.extension?_join t q dir, Path.extension?, Path.extension?, Path.fileName?, Path.fileName?, hp]
  rw [dir.parts_join (SpillDir.isName_fileName t q)] at hp
  simp [onShelf, Path.isIn_of_parts hp, he]

theorem shelf_without (fs : Storage) (dir g : Path) :
    (fs.without g).shelf dir = (fs.shelf dir).filter (!·.1.same g) := by
  simp only [shelf, without, MemoryFiles.remove, List.filter_filter, Bool.and_comm]

theorem shelf_holding {g : Path} {data : Bytes} (hg : onShelf dir g = true)
    (hn : ∀ x ∈ fs.files.files, x.1.same g = false) :
    ((fs.holding g data).shelf dir).Perm ((g, data) :: fs.shelf dir) := by
  have hp := (MemoryFiles.insert_perm data hn).filter (onShelf dir ·.1)
  rwa [List.filter_cons_of_pos (by simpa using hg)] at hp

end Storage

/-! ## Files on the sheet -/

def entry (x : Envelope × Path) : Path × Bytes := (x.2, x.1.toBytes)

/-- The files of a directory are these. Where `steady` holds, no name tells a time to come. -/
structure Filed (steady : Prop) (dir : Path) (now : Timestamp) (q : UInt64) (fs : Storage)
    (xs : List (Envelope × Path)) : Prop where
  fit : fs.Fit
  shelf : (fs.shelf dir).Perm (xs.map entry)
  named : ∀ x ∈ xs, ∃ t n, x.2 = dir.join (SpillDir.fileName t n) ∧ n < q ∧ (steady → t.millis ≤ now.millis)

/-- The files are in the order of the envelopes, and of those that wait, those with files come first. -/
structure Orderly (done : Done) (todo : Todo) : Prop where
  sorted : (places done todo).Pairwise fun a b => a.2.before b.2 = true
  first : todo.Pairwise fun a b => b.2.file.isSome = true → a.2.file.isSome = true

section
variable {steady : Prop} {dir : Path} {now : Timestamp} {fs fs' : Storage} {q q' : UInt64}
variable {xs : List (Envelope × Path)} {done done' : Done} {todo todo' : Todo} {e : Envelope} {p : Parcel}

theorem Filed.distinct (hf : Filed steady dir now q fs xs) : xs.Pairwise fun a b => a.2.same b.2 = false := by
  have hs : (fs.shelf dir).Pairwise fun a b => a.1.same b.1 = false :=
    (Storage.shelf_sorted hf.fit dir).imp fun h => Path.not_same_of_before h
  have hm := (hf.shelf.pairwise_iff fun h => by rwa [Path.same_comm]).mp hs
  exact List.pairwise_map.mp hm

theorem Filed.next_lt (hq : q < SpillDir.modulus) (h : q' = q ∨ q' = q + 1) {n : UInt64} (hn : n < q) : n < q' := by
  rcases h with rfl | rfl
  · exact hn
  · simp only [UInt64.lt_iff_toNat_lt, UInt64.toNat_add, SpillDir.modulus] at hq hn ⊢
    simp at hq ⊢
    omega

theorem Filed.advance (hf : Filed steady dir now q fs xs) (hq : q < SpillDir.modulus) (h : q' = q ∨ q' = q + 1)
    (hfiles : fs'.files.files = fs.files.files) (hden : fs'.denied = fs.denied) :
    Filed steady dir now q' fs' xs where
  fit := ⟨by rw [hfiles]; exact hf.fit.sorted, hden.trans hf.fit.allowed⟩
  shelf := by rw [Storage.shelf, hfiles]; exact hf.shelf
  named x hx := by
    obtain ⟨t, n, hn, hlt, hle⟩ := hf.named x hx
    exact ⟨t, n, hn, Filed.next_lt hq h hlt, hle⟩

theorem Filed.perm {ys : List (Envelope × Path)} (hf : Filed steady dir now q fs xs) (h : xs.Perm ys) :
    Filed steady dir now q fs ys :=
  ⟨hf.fit, hf.shelf.trans (h.map entry), fun x hx => hf.named x (h.mem_iff.mpr hx)⟩

theorem Filed.remove {g : Path} (hf : Filed steady dir now q fs ((e, g) :: xs)) :
    Filed steady dir now q (fs.without g) xs where
  fit := hf.fit.without g
  shelf := by
    have hd := (List.pairwise_cons.mp hf.distinct).1
    have hp := hf.shelf.filter (!·.1.same g)
    rw [← Storage.shelf_without, List.map_cons, List.filter_cons_of_neg (by simp [entry, Path.same_refl]),
      List.filter_eq_self.mpr] at hp
    · exact hp
    · intro y hy
      obtain ⟨x, hx, rfl⟩ := List.mem_map.mp hy
      simp only [entry, Path.same_comm x.2 g, hd x hx, Bool.not_false]
  named x hx := hf.named x (List.mem_cons_of_mem _ hx)

theorem Filed.hold (hf : Filed steady dir now q fs xs) (hq : q < SpillDir.modulus) (e : Envelope) :
    Filed steady dir now (q + 1) (fs.holding (dir.join (SpillDir.fileName now q)) e.toBytes)
      ((e, dir.join (SpillDir.fileName now q)) :: xs) where
  fit := hf.fit.holding _ _
  shelf := by
    have hmod {n : UInt64} (hn : n < SpillDir.modulus) : n % SpillDir.modulus = n := by
      rw [← UInt64.toNat_inj, UInt64.toNat_mod]
      exact Nat.mod_eq_of_lt (UInt64.lt_iff_toNat_lt.mp hn)
    refine (Storage.shelf_holding (Storage.onShelf_of_same (Path.same_refl _)) fun x hx => ?_).trans
      (hf.shelf.cons (entry (e, _)))
    rw [Bool.eq_false_iff]
    intro hsame
    obtain ⟨y, hy, hxy⟩ := List.mem_map.mp
      (hf.shelf.mem_iff.mp (Storage.mem_shelf.mpr ⟨hx, Storage.onShelf_of_same hsame⟩))
    obtain ⟨t, n, hn, hlt, -⟩ := hf.named y hy
    rw [← hxy, entry, hn] at hsame
    have hnq := SpillDir.same_fileName dir hsame
    rw [hmod (UInt64.lt_trans hlt hq), hmod hq] at hnq
    exact absurd hlt (by rw [hnq]; exact UInt64.lt_irrefl _)
  named x hx := by
    have hlt {n : UInt64} (hn : n < q) : n < q + 1 := Filed.next_lt hq (.inr rfl) hn
    rcases List.mem_cons.mp hx with rfl | hx
    · refine ⟨now, q, rfl, ?_, fun _ => UInt64.le_refl _⟩
      simp only [UInt64.lt_iff_toNat_lt, UInt64.toNat_add, SpillDir.modulus] at hq ⊢
      simp at hq ⊢
      omega
    · obtain ⟨t, n, hn, hn', hle⟩ := hf.named x hx
      exact ⟨t, n, hn, hlt hn', hle⟩

/-! ## Changes of the sheet -/

theorem placesDone_snoc (done : Done) (x : Envelope × Parcel × Fate) :
    placesDone (done ++ [x]) = placesDone done ++ (x.2.2.file?.map (x.1, ·)).toList := by
  rw [placesDone, List.filterMap_append, placesDone]
  cases h : x.2.2.file?.map (x.1, ·) <;> simp [h]

theorem placesTodo_cons (x : Envelope × Parcel) (todo : Todo) :
    placesTodo (x :: todo) = (x.2.file.map (x.1, ·)).toList ++ placesTodo todo := by
  rw [placesTodo, List.filterMap_cons, placesTodo]
  cases h : x.2.file.map (x.1, ·) <;> simp

/-- What the sheet tells of stays what stands on the shelf. -/
theorem Filing.filed (h : Filing dir now fs fs' q q' done todo done' todo') (hq : q < SpillDir.modulus)
    (hf : Filed steady dir now q fs (places done todo)) : Filed steady dir now q' fs' (places done' todo') := by
  cases h with
  | idle hfs hden hq' => exact hf.advance hq hq' hfs hden
  | accept e hfs hq' =>
    have hpl : places done (todo ++ [(e, ⟨e, none, true⟩)]) = places done todo := by
      simp [places, placesTodo]
    rw [hpl]
    exact hf.advance hq (.inl hq') (by rw [hfs]) (by rw [hfs])
  | @drop e p _ f ht hn hfs hq' =>
    have hpl : places (done ++ [(e, p, f)]) todo' = placesDone done ++ placesTodo todo' := by
      rw [places, placesDone_snoc, hn]
      simp
    rw [hpl, hfs]
    rw [ht, places, placesTodo_cons] at hf
    cases hg : p.file with
    | none =>
      rw [hg] at hf
      exact hf.advance hq hq' rfl rfl
    | some g =>
      rw [hg] at hf
      rw [Storage.remove_some hf.fit.allowed]
      exact (hf.perm (List.perm_middle)).remove.advance hq hq' rfl rfl
  | @keep e p _ g ht hg hfs hq' =>
    have hpl : places (done ++ [(e, p, .kept g)]) todo' = places done todo := by
      rw [places, placesDone_snoc, ht, places, placesTodo_cons, hg]
      simp [Fate.file?]
    rw [hpl]
    exact hf.advance hq (.inl hq') (by rw [hfs]) (by rw [hfs])
  | @file e p rest g ht hn hg hfs hq' =>
    rw [ht, places, placesTodo_cons, hn] at hf
    rw [places, placesTodo_cons, hg, hfs, hg, hq']
    exact (hf.hold hq e).perm List.perm_middle.symm
  | @shelve e p _ g ht hn hg hfs hq' =>
    rw [ht, places, placesTodo_cons, hn] at hf
    rw [places, placesDone_snoc, hg, hfs, hg, hq', List.append_assoc]
    exact (hf.hold hq e).perm List.perm_middle.symm

theorem Orderly.no_files (ho : Orderly done todo) {rest : Todo} (ht : todo = (e, p) :: rest) (hn : p.file = none) :
    placesTodo rest = [] := by
  refine List.filterMap_eq_nil_iff.mpr fun x hx => ?_
  have h := (List.pairwise_cons.mp (ht ▸ ho.first)).1 x hx
  cases hf : x.2.file with
  | none => rfl
  | some g =>
    have := h (by rw [hf]; rfl)
    rw [hn] at this
    cases this

theorem Filed.before_next (hf : Filed steady dir now q fs xs) (hs : steady) (hq : q < SpillDir.modulus)
    (hb : now.millis.toNat < 10 ^ 13) : ∀ x ∈ xs, x.2.before (dir.join (SpillDir.fileName now q)) = true := by
  intro x hx
  obtain ⟨t, n, hn, hlt, hle⟩ := hf.named x hx
  rw [hn]
  exact SpillDir.fileName_before dir (hle hs) hb hlt hq

theorem Filed.snoc_sorted (hf : Filed steady dir now q fs xs) (hs : steady) (hq : q < SpillDir.modulus)
    (hb : now.millis.toNat < 10 ^ 13) (hsort : xs.Pairwise fun a b => a.2.before b.2 = true) (e : Envelope) :
    (xs ++ [(e, dir.join (SpillDir.fileName now q))]).Pairwise fun a b => a.2.before b.2 = true := by
  refine List.pairwise_append.mpr ⟨hsort, List.pairwise_singleton .., fun x hx y hy => ?_⟩
  cases List.mem_singleton.mp hy
  exact hf.before_next hs hq hb x hx

/-- While the clock does not go back, new files come behind the others, as new envelopes do. -/
theorem Filing.orderly (h : Filing dir now fs fs' q q' done todo done' todo')
    (hf : Filed steady dir now q fs (places done todo)) (hs : steady) (hq : q < SpillDir.modulus)
    (hb : now.millis.toNat < 10 ^ 13) (ho : Orderly done todo) : Orderly done' todo' := by
  have hsort := ho.sorted
  cases h with
  | idle => exact ho
  | accept e =>
    refine ⟨?_, List.pairwise_append.mpr ⟨ho.first, List.pairwise_singleton .., by simp⟩⟩
    simpa [places, placesTodo] using hsort
  | drop ht hn =>
    have hfirst := (List.pairwise_cons.mp (ht ▸ ho.first)).2
    rw [ht, places, placesTodo_cons] at hsort
    refine ⟨?_, hfirst⟩
    rw [places, placesDone_snoc, hn]
    simpa using hsort.sublist ((List.sublist_append_right _ _).append_left _)
  | keep ht hg =>
    have hfirst := (List.pairwise_cons.mp (ht ▸ ho.first)).2
    rw [ht, places, placesTodo_cons, hg] at hsort
    refine ⟨?_, hfirst⟩
    rw [places, placesDone_snoc, List.append_assoc]
    exact hsort
  | @file e p rest g ht hn hg =>
    have hnone := ho.no_files ht hn
    have hlast := hf.snoc_sorted hs hq hb hsort e
    have hfirst := List.pairwise_cons.mp (ht ▸ ho.first)
    rw [ht, places, placesTodo_cons, hn, hnone] at hlast
    refine ⟨?_, List.pairwise_cons.mpr ⟨fun _ _ _ => rfl, hfirst.2⟩⟩
    rw [places, placesTodo_cons, hnone, hg]
    simpa using hlast
  | @shelve e p _ g ht hn hg =>
    have hnone := ho.no_files ht hn
    have hlast := hf.snoc_sorted hs hq hb hsort e
    have hfirst := List.pairwise_cons.mp (ht ▸ ho.first)
    rw [ht, places, placesTodo_cons, hn, hnone] at hlast
    refine ⟨?_, hfirst.2⟩
    rw [places, placesDone_snoc, hnone, hg, List.append_nil]
    simpa [Fate.file?] using hlast

end

end Courier

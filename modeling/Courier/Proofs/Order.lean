import Courier.Storage.Memory

/-!
# Files in order

Paths are in a strict order by their parts. The table of files stays in this order, and so no path has two files:
what is written is found, what is removed is gone, and all other files stay. A directory is listed in this order.
-/

namespace Courier

/-! ## Parts and paths -/

namespace Part

theorem before_irrefl (a : Part) : a.before a = false := by
  cases a with
  | name s => simp [before]
  | _ => rfl

theorem before_trans {a b c : Part} (hab : a.before b = true) (hbc : b.before c = true) : a.before c = true := by
  cases a <;> cases b <;> cases c
  case name.name.name s t u =>
    exact decide_eq_true (String.lt_trans (of_decide_eq_true hab) (of_decide_eq_true hbc))
  all_goals simp_all [before, rank]

theorem before_total {a b : Part} (h : a ≠ b) : a.before b = true ∨ b.before a = true := by
  cases a <;> cases b
  case name.name s t =>
    rcases Decidable.em (s < t) with hl | hl
    · exact .inl (decide_eq_true hl)
    · rcases Decidable.em (t < s) with hg | hg
      · exact .inr (decide_eq_true hg)
      · exact absurd (congrArg name (String.le_antisymm (String.not_lt.mp hg) (String.not_lt.mp hl))) h
  all_goals simp_all [before, rank]

end Part

theorem partsBefore_irrefl (as : List Part) : partsBefore as as = false := by
  induction as with
  | nil => rfl
  | cons a as ih => simp [partsBefore, Part.before_irrefl, ih]

theorem partsBefore_trans {as bs cs : List Part} (hab : partsBefore as bs = true) (hbc : partsBefore bs cs = true) :
    partsBefore as cs = true := by
  induction as generalizing bs cs with
  | nil =>
    cases cs with
    | nil => cases bs <;> simp [partsBefore] at hbc
    | cons c cs => rfl
  | cons a as ih =>
    cases bs with
    | nil => simp [partsBefore] at hab
    | cons b bs =>
      cases cs with
      | nil => simp [partsBefore] at hbc
      | cons c cs =>
        simp only [partsBefore, Bool.or_eq_true, Bool.and_eq_true, beq_iff_eq] at hab hbc ⊢
        rcases hab with hab | ⟨rfl, hab⟩
        · rcases hbc with hbc | ⟨rfl, hbc⟩
          · exact .inl (Part.before_trans hab hbc)
          · exact .inl hab
        · rcases hbc with hbc | ⟨rfl, hbc⟩
          · exact .inl hbc
          · exact .inr ⟨rfl, ih hab hbc⟩

theorem partsBefore_total {as bs : List Part} (h : as ≠ bs) : partsBefore as bs = true ∨ partsBefore bs as = true := by
  induction as generalizing bs with
  | nil =>
    cases bs with
    | nil => exact absurd rfl h
    | cons b bs => exact .inl rfl
  | cons a as ih =>
    cases bs with
    | nil => exact .inr rfl
    | cons b bs =>
      simp only [partsBefore, Bool.or_eq_true, Bool.and_eq_true, beq_iff_eq]
      by_cases hab : a = b
      · subst hab
        rcases ih (fun e => h (by rw [e])) with hl | hl
        · exact .inl (.inr ⟨rfl, hl⟩)
        · exact .inr (.inr ⟨rfl, hl⟩)
      · rcases Part.before_total hab with hl | hl
        · exact .inl (.inl hl)
        · exact .inr (.inl hl)

namespace Path

theorem same_iff {a b : Path} : a.same b = true ↔ a.parts = b.parts := by simp [same]

theorem same_refl (a : Path) : a.same a = true := same_iff.mpr rfl

theorem same_symm {a b : Path} (h : a.same b = true) : b.same a = true := same_iff.mpr (same_iff.mp h).symm

theorem same_comm (a b : Path) : a.same b = b.same a := by
  rw [Bool.eq_iff_iff]
  exact ⟨same_symm, same_symm⟩

theorem same_trans {a b c : Path} (hab : a.same b = true) (hbc : b.same c = true) : a.same c = true :=
  same_iff.mpr ((same_iff.mp hab).trans (same_iff.mp hbc))

theorem before_trans {a b c : Path} (hab : a.before b = true) (hbc : b.before c = true) : a.before c = true :=
  partsBefore_trans hab hbc

theorem before_total {a b : Path} (h : a.same b = false) : a.before b = true ∨ b.before a = true :=
  partsBefore_total fun e => by simp [same, e] at h

theorem not_same_of_before {a b : Path} (h : a.before b = true) : a.same b = false := by
  rw [Bool.eq_false_iff]
  intro hs
  rw [before, same_iff.mp hs, partsBefore_irrefl] at h
  cases h

theorem not_same_of_after {a b : Path} (h : a.before b = true) : b.same a = false := by
  rw [Bool.eq_false_iff]
  intro hs
  exact absurd (same_symm hs) (by simp [not_same_of_before h])

theorem before_of_before_same {a b c : Path} (hab : a.before b = true) (hbc : b.same c = true) :
    a.before c = true := by
  rw [before, ← same_iff.mp hbc]
  exact hab

theorem before_of_same {a b c : Path} (hab : a.same b = true) (hbc : b.before c = true) : a.before c = true := by
  rw [before, same_iff.mp hab]
  exact hbc

theorem before_asymm {a b : Path} (h : a.before b = true) : b.before a = false := by
  rw [Bool.eq_false_iff]
  intro hb
  exact absurd (before_trans h hb) (by simp [before, partsBefore_irrefl])

end Path

/-! ## The table of files -/

namespace MemoryFiles

/-- The files are in the order of their paths. -/
def Sorted (files : List (Path × Bytes)) : Prop := files.Pairwise fun x y => x.1.before y.1 = true

variable {files : List (Path × Bytes)} {p q : Path} {data b : Bytes}

theorem Sorted.filter (h : Sorted files) (keep : Path × Bytes → Bool) : Sorted (files.filter keep) :=
  List.Pairwise.filter keep h

theorem Sorted.unique (h : Sorted files) {x y : Path × Bytes} (hx : x ∈ files) (hy : y ∈ files)
    (hs : x.1.same y.1 = true) : x = y := by
  induction files with
  | nil => cases hx
  | cons z files ih =>
    obtain ⟨hz, hr⟩ := List.pairwise_cons.mp h
    rcases List.mem_cons.mp hx with hx' | hx' <;> rcases List.mem_cons.mp hy with hy' | hy'
    · rw [hx', hy']
    · rw [hx', Path.not_same_of_before (hz y hy')] at hs
      cases hs
    · rw [hy', Path.not_same_of_after (hz x hx')] at hs
      cases hs
    · exact ih hr hx' hy'

/-- After a write there are the new file, perhaps in an older spelling, and the files of all other paths. -/
theorem mem_insert {x : Path × Bytes} (h : Sorted files) (hx : x ∈ insert p data files) :
    x.1.same p = true ∧ x.2 = data ∨ x.1.same p = false ∧ x ∈ files := by
  induction files with
  | nil =>
    cases List.mem_singleton.mp hx
    exact .inl ⟨p.same_refl, rfl⟩
  | cons y files ih =>
    obtain ⟨q, old⟩ := y
    obtain ⟨hq, hr⟩ := List.pairwise_cons.mp h
    unfold insert at hx
    split at hx
    · next hs =>
      rcases List.mem_cons.mp hx with rfl | hx
      · exact .inl ⟨hs, rfl⟩
      · have hb := Path.before_of_same (Path.same_symm hs) (hq x hx)
        exact .inr ⟨Path.not_same_of_after hb, List.mem_cons_of_mem _ hx⟩
    · next hs =>
      split at hx
      · next hb =>
        rcases List.mem_cons.mp hx with rfl | hx
        · exact .inl ⟨p.same_refl, rfl⟩
        · refine .inr ⟨Path.not_same_of_after ?_, hx⟩
          rcases List.mem_cons.mp hx with rfl | hx
          · exact hb
          · exact Path.before_trans hb (hq x hx)
      · rcases List.mem_cons.mp hx with rfl | hx
        · exact .inr ⟨by simpa using hs, List.mem_cons_self⟩
        · exact (ih hr hx).imp_right fun ⟨hn, hm⟩ => ⟨hn, List.mem_cons_of_mem _ hm⟩

theorem Sorted.insert (h : Sorted files) (p : Path) (data : Bytes) : Sorted (insert p data files) := by
  induction files with
  | nil => exact List.pairwise_singleton ..
  | cons y files ih =>
    obtain ⟨q, old⟩ := y
    obtain ⟨hq, hr⟩ := List.pairwise_cons.mp h
    unfold MemoryFiles.insert
    split
    · exact List.pairwise_cons.mpr ⟨hq, hr⟩
    · next hs =>
      split
      · next hb =>
        refine List.pairwise_cons.mpr ⟨fun x hx => ?_, h⟩
        rcases List.mem_cons.mp hx with rfl | hx
        · exact hb
        · exact Path.before_trans hb (hq x hx)
      · next hb =>
        refine List.pairwise_cons.mpr ⟨fun x hx => ?_, ih hr⟩
        rcases mem_insert hr hx with ⟨hx, -⟩ | ⟨-, hx⟩
        · have hqp := (Path.before_total (a := q) (b := p) (by simpa using hs)).resolve_right (by simpa using hb)
          exact Path.before_of_before_same hqp (Path.same_symm hx)
        · exact hq x hx

theorem insert_perm (data : Bytes) (hn : ∀ x ∈ files, x.1.same p = false) :
    (insert p data files).Perm ((p, data) :: files) := by
  induction files with
  | nil => exact .refl _
  | cons y files ih =>
    obtain ⟨q, old⟩ := y
    unfold insert
    rw [if_neg (by simp [hn (q, old) List.mem_cons_self])]
    split
    · exact .refl _
    · exact ((ih fun x hx => hn x (List.mem_cons_of_mem _ hx)).cons _).trans (.swap ..)

end MemoryFiles

/-! ## Whatever is done to the files -/

inductive FileAct
  | createDirs (p : Path)
  | lock (p : Path)
  | unlock (p : Path)
  | write (p : Path) (data : Bytes)
  | remove (p : Path)
  | failWrites (on : Bool)
  | crash

namespace MemoryFiles

variable {m : MemoryFiles} {p : Path}

/-- What fails changes nothing. -/
def act (m : MemoryFiles) : FileAct → MemoryFiles
  | .createDirs p => m.createDirs p
  | .lock p =>
    match m.tryLock p with
    | .ok (some (_, m)) => m
    | _ => m
  | .unlock p => m.unlock p
  | .write p data =>
    match m.write p data with
    | .ok m => m
    | .error _ => m
  | .remove p => m.remove p
  | .failWrites on => { m with failWrites := on }
  | .crash => m.crash

def run (m : MemoryFiles) (acts : List FileAct) : MemoryFiles := acts.foldl act m

theorem tryLock_eq_some {l : Path} {m' : MemoryFiles} (h : m.tryLock p = .ok (some (l, m'))) :
    l = p ∧ m.isLocked p = false ∧ m' = { m with locks := m.locks ++ [p] } := by
  unfold tryLock at h
  split at h
  · cases h
  · split at h
    · cases h
    · next hl =>
      cases h
      exact ⟨rfl, by simpa using hl, rfl⟩

theorem write_eq_ok {data : Bytes} {m' : MemoryFiles} (h : m.write p data = .ok m') :
    m' = { m with files := insert p data m.files } := by
  unfold write at h
  split at h
  · cases h
  · split at h
    · cases h
    · cases h
      rfl

theorem Sorted.act (h : Sorted m.files) (a : FileAct) : Sorted (m.act a).files := by
  cases a with
  | lock p =>
    rw [MemoryFiles.act]
    split
    · next hl =>
      rw [(tryLock_eq_some hl).2.2]
      exact h
    · exact h
  | write p data =>
    rw [MemoryFiles.act]
    split
    · next hw =>
      rw [write_eq_ok hw]
      exact h.insert p data
    · exact h
  | remove p => exact h.filter _
  | _ => exact h

theorem Sorted.run (h : Sorted m.files) (acts : List FileAct) : Sorted (m.run acts).files := by
  induction acts generalizing m with
  | nil => exact h
  | cons a acts ih => exact ih (h.act a)

theorem sorted_run (acts : List FileAct) : Sorted (run {} acts).files :=
  Sorted.run (m := {}) List.Pairwise.nil acts

/-! ## Listing and finding -/

theorem Sorted.list (h : Sorted m.files) (dir : Path) (extension : String) :
    (m.list dir extension).Pairwise fun p q => p.before q = true := by
  have hp : (m.files.map Prod.fst).Pairwise fun p q => p.before q = true := List.pairwise_map.mpr h
  exact hp.filter _

theorem mem_list {dir : Path} {extension : String} :
    p ∈ m.list dir extension ↔
      (∃ data, (p, data) ∈ m.files) ∧ isIn dir p = true ∧ p.extension? = some extension := by
  simp [MemoryFiles.list]

theorem find?_isSome : (m.find? p).isSome = true ↔ ∃ x ∈ m.files, x.1.same p = true := by
  rw [find?, Option.isSome_map, List.find?_isSome]

end MemoryFiles

end Courier

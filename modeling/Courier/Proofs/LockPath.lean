import Courier.Proofs.Paths
import Courier.Storage.Claim

/-!
# The lock beside a directory

The plain spelling of a path has its parts. So the lock of a directory stands beside it, in a directory that is
there once the directory has been created.
-/

namespace Courier

namespace Path

/-! ## Plain spelling -/

/-- The parts that a text can have. -/
inductive Spelling : List Part → Prop
  | nil : Spelling []
  | root : Spelling [.root]
  | snoc {ps} {s : String} {p} (h : Spelling ps) (hs : '/' ∉ s.toList) (hp : partOf ps.isEmpty s.toList = some p) :
    Spelling (ps ++ [p])

theorem text_of_partOf {first : Bool} {s : String} {p : Part} (h : partOf first s.toList = some p) :
    p.text = s ∧ p ≠ .root := by
  unfold partOf at h
  split at h
  · cases h
  · split at h
    · next hs =>
      split at h <;> cases h
      exact ⟨String.toList_inj.mp hs.symm, nofun⟩
    · split at h
      · next hs => cases h; exact ⟨String.toList_inj.mp hs.symm, nofun⟩
      · cases h
        exact ⟨String.ofList_toList, nofun⟩

theorem partOf_true {cs : List Char} {p : Part} (h : partOf false cs = some p) : partOf true cs = some p := by
  unfold partOf at h ⊢
  split at h
  · cases h
  · split at h
    · cases h
    · next h₁ h₂ => rw [if_neg h₁, if_neg h₂]; exact h

theorem spelling_scan : ∀ (cs : List Char) {first : Bool} {seg : List Char} {n : Nat} {ps : List Part}, Spelling ps →
    (first = true → ps = []) → '/' ∉ seg → Spelling (ps ++ (scan first seg n cs).map Prod.fst)
  | cs, first, seg, n, ps, hps, hf, hs => by
    have hpart : Spelling (ps ++ (partOf first seg.reverse).toList) := by
      cases hp : partOf first seg.reverse with
      | none => simpa using hps
      | some p =>
        refine .snoc (s := String.ofList seg.reverse) hps (by simpa using hs) ?_
        rw [String.toList_ofList]
        cases first with
        | true => rw [hf rfl]; exact hp
        | false =>
          cases ps.isEmpty with
          | true => exact partOf_true hp
          | false => exact hp
    cases cs with
    | nil => simpa [scan, Function.comp_def] using hpart
    | cons c cs =>
      by_cases hc : c = '/'
      · subst hc
        have h := spelling_scan cs (n := n + 1) hpart (show false = true → _ by simp) (List.not_mem_nil (a := '/'))
        simpa [scan, Function.comp_def] using h
      · rw [scan_cons hc]
        exact spelling_scan cs hps hf (by simp [Ne.symm hc, hs])

theorem spelling_parts (p : Path) : Spelling p.parts := by
  rw [parts, placedParts_eq]
  cases p.text.toList with
  | nil => exact .nil
  | cons c cs =>
    by_cases hc : c = '/'
    · subst hc
      exact spelling_scan cs .root (by simp) List.not_mem_nil
    · rw [placed_of_ne (by simpa using hc)]
      exact spelling_scan (c :: cs) .nil (fun _ => rfl) List.not_mem_nil

theorem textOf_cons {r : Part} (hr : r ≠ .root) (ps : List Part) :
    textOf (r :: ps) = "/".intercalate ((r :: ps).map Part.text) := by
  cases r with
  | root => exact absurd rfl hr
  | _ => rfl

theorem intercalate_snoc (a : String) (l : List String) (b : String) :
    "/".intercalate (a :: l ++ [b]) = "/".intercalate (a :: l) ++ "/" ++ b := by
  rw [String.intercalate_append_of_ne_nil (List.cons_ne_nil a l) (List.cons_ne_nil b []), String.intercalate_singleton]

/-- The last part stands behind a slash, unless it is the only one or the root is before it. -/
theorem textOf_snoc {ps : List Part} {p : Part} (hp : p ≠ .root) :
    textOf (ps ++ [p]) =
      if ps = [] then p.text else if ps = [.root] then "/" ++ p.text else textOf ps ++ "/" ++ p.text := by
  cases ps with
  | nil => rw [List.nil_append, textOf_cons hp]; rfl
  | cons r ps =>
    rw [if_neg (List.cons_ne_nil r ps)]
    by_cases hr : r = .root
    · subst hr
      cases ps with
      | nil => rfl
      | cons q ps =>
        rw [if_neg (by simp), List.cons_append, textOf, textOf, List.map_append, List.map_cons, List.map_singleton,
          intercalate_snoc]
        simp only [String.append_assoc]
    · rw [if_neg (by simp [hr]), List.cons_append, textOf_cons hr, textOf_cons hr, ← List.cons_append, List.map_append,
        List.map_cons, List.map_singleton, intercalate_snoc]

/-- The plain spelling of parts is read as the parts. -/
theorem parts_textOf {ps : List Part} (h : Spelling ps) : (⟨textOf ps⟩ : Path).parts = ps := by
  induction h with
  | nil => rfl
  | root => rfl
  | @snoc ps s p h hs hp ih =>
    obtain ⟨ht, hr⟩ := text_of_partOf hp
    rw [parts, placedParts_eq] at ih ⊢
    simp only [textOf_snoc hr, ht]
    -- the first part has no slash in front, and the part behind the root has no second one
    split
    · next hnil =>
      subst hnil
      rw [placed_of_ne (fun h => hs (List.mem_of_mem_head? h)), scan_segment hs, List.reverse_nil, List.nil_append,
        show partOf true s.toList = some p from hp]
      rfl
    · next hne =>
      have hp' : partOf false s.toList = some p := by
        rwa [List.isEmpty_eq_false_iff.mpr hne] at hp
      split
      · next hroot =>
        subst hroot
        rw [String.toList_append, show "/".toList = ['/'] from rfl, List.singleton_append, placed, scan_segment hs,
          List.reverse_nil, List.nil_append, hp']
        rfl
      · have hnt : (textOf ps).toList ≠ [] := by
          intro he
          simp only [he] at ih
          exact hne ih.symm
        rw [String.toList_append, String.toList_append, show "/".toList = ['/'] from rfl, List.append_assoc,
          List.singleton_append, placed_append_slash hnt, scan_segment hs, List.reverse_nil, List.nil_append, hp',
          List.map_append, ih]
        rfl

theorem textOf_append {ps : List Part} {p : Part} (hp : p ≠ .root) (s : String) :
    textOf (ps ++ [p]) ++ s = textOf (ps ++ [.name (p.text ++ s)]) := by
  rw [textOf_snoc hp, textOf_snoc (p := .name _) nofun]
  split
  · rfl
  · split <;> simp only [Part.text, String.append_assoc]

end Path

/-! ## Directories that are there -/

namespace MemoryFiles

theorem holds_adding {paths : List Path} {p q : Path} (h : holds paths q = true) : holds (adding paths p) q = true := by
  unfold adding
  split
  · exact h
  · simp only [holds, List.any_append, Bool.or_eq_true] at h ⊢
    exact .inl h

theorem holds_foldl {ps paths : List Path} {q : Path} (h : holds paths q = true) :
    holds (ps.foldl adding paths) q = true := by
  induction ps generalizing paths with
  | nil => exact h
  | cons p ps ih => exact ih (holds_adding h)

theorem holds_of_mem {ps paths : List Path} {p q : Path} (hp : p ∈ ps) (hs : p.same q = true) :
    holds (ps.foldl adding paths) q = true := by
  induction ps generalizing paths with
  | nil => cases hp
  | cons r ps ih =>
    rcases List.mem_cons.mp hp with rfl | hp
    · rw [List.foldl_cons]
      refine holds_foldl ?_
      unfold adding
      split
      · next h =>
        obtain ⟨x, hx, hxp⟩ := List.any_eq_true.mp h
        refine List.any_eq_true.mpr ⟨x, hx, ?_⟩
        simp only [Path.same, beq_iff_eq] at hxp hs ⊢
        exact hxp.trans hs
      · simp [holds, hs]
    · exact ih hp

end MemoryFiles

namespace Path

theorem ancestors_self (p : Path) : ∃ rest, p.ancestors = p :: rest := by
  unfold ancestors
  cases p.placedParts.length with
  | zero => exact ⟨[], rfl⟩
  | succ n =>
    rw [ancestors.go]
    split
    · exact ⟨_, rfl⟩
    · exact ⟨_, rfl⟩

theorem ancestors_parent {p q : Path} (hp : p.placedParts ≠ []) (hq : p.parent? = some q) :
    ∃ rest, p.ancestors = p :: q :: rest := by
  unfold ancestors
  obtain ⟨n, hn⟩ := Nat.exists_eq_succ_of_ne_zero (fun h => hp (List.length_eq_zero_iff.mp h))
  rw [hn, ancestors.go, hq]
  cases n with
  | zero => exact ⟨[], rfl⟩
  | succ n =>
    simp only [ancestors.go]
    split
    · exact ⟨_, rfl⟩
    · exact ⟨_, rfl⟩

theorem isEmpty_of_parts {p : Path} (h : p.parts ≠ []) : p.isEmpty = false := by
  rw [Bool.eq_false_iff]
  intro he
  have ht : p.text = "" := String.isEmpty_iff.mp he
  rw [parts, placedParts_eq, ht] at h
  exact h rfl

theorem isName_lock (s : String) (hs : '/' ∉ s.toList) : IsName (s ++ ".lock") := by
  have hl : (s ++ ".lock").toList = s.toList ++ ['.', 'l', 'o', 'c', 'k'] := String.toList_append
  constructor
  · rw [hl]; simp [hs]
  · rw [hl]; simp
  · rw [hl]
    intro h
    have := congrArg List.length h
    simp at this
  · rw [hl]
    intro h
    have := congrArg List.length h
    simp at this

end Path

namespace DirClaim

open Courier.Path

theorem parts_lockPath (dir : Path) :
    ∃ ps s, (lockPath dir).parts = ps ++ [.name s] ∧ (ps = [] ∨ ps = dir.parts ∨ ∃ p, dir.parts = ps ++ [p]) := by
  have h := dir.spelling_parts
  have hl : lockPath dir = ⟨textOf dir.parts ++ ".lock"⟩ := rfl
  rw [hl]
  generalize dir.parts = qs at h
  cases h with
  | nil => exact ⟨[], ".lock", by decide +kernel, .inl rfl⟩
  | root => exact ⟨[.root], ".lock", by decide +kernel, .inr (.inl rfl)⟩
  | @snoc ps s p h hs hp =>
    obtain ⟨ht, hr⟩ := text_of_partOf hp
    have hn := isName_lock s hs
    refine ⟨ps, s ++ ".lock", ?_, .inr (.inr ⟨p, rfl⟩)⟩
    rw [textOf_append hr, ht, parts_textOf (.snoc h hn.noSlash (hn.partOf _))]

/-- Once a directory is created, its lock can be taken or is held. -/
theorem parentMissing?_lockPath (m : MemoryFiles) (dir : Path) :
    (m.createDirs dir).parentMissing? (lockPath dir) = none := by
  obtain ⟨ps, s, hparts, hps⟩ := parts_lockPath dir
  obtain ⟨q, hq, hqp, hqe⟩ := parent?_of_parts hparts fun _ => nofun
  unfold MemoryFiles.parentMissing?
  rw [hq]
  simp only
  by_cases hnil : ps = []
  · rw [hqe hnil]
    rfl
  · suffices MemoryFiles.holds (m.createDirs dir).dirs q = true by rw [this, Bool.or_true]; rfl
    have hdir : dir.isEmpty = false := by
      refine isEmpty_of_parts ?_
      rcases hps with h | h | ⟨p, h⟩
      · exact absurd h hnil
      · rw [← h]; exact hnil
      · rw [h]; simp
    rcases hps with h | h | ⟨p, h⟩
    · exact absurd h hnil
    · obtain ⟨rest, ha⟩ := dir.ancestors_self
      refine MemoryFiles.holds_of_mem (p := dir) ?_ (by simp [same, hqp, h])
      rw [ha, List.takeWhile_cons, hdir]
      exact List.mem_cons_self
    · obtain ⟨q', hq', hqp', -⟩ := parent?_of_parts h fun hn => absurd hn hnil
      have hplaced : dir.placedParts ≠ [] := fun hn => by simp [parts, hn] at h
      obtain ⟨rest, ha⟩ := ancestors_parent hplaced hq'
      refine MemoryFiles.holds_of_mem (p := q') ?_ (by simp [same, hqp, hqp'])
      rw [ha, List.takeWhile_cons, hdir, List.takeWhile_cons, isEmpty_of_parts (by rw [hqp']; exact hnil)]
      exact List.mem_cons_of_mem _ List.mem_cons_self

end DirClaim

end Courier

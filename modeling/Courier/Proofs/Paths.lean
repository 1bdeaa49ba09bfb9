import Courier.Storage.Memory

/-!
# Paths by their parts

A name that is put behind a directory is one more part behind the parts of the directory, whatever way that is
spelled, and the parent of a path is the path without its last part.
-/

namespace Courier.Path

/-! ## Scanning -/

variable {first : Bool} {seg : List Char} {n : Nat}

theorem scan_cons {c : Char} (h : c ≠ '/') (first : Bool) (seg : List Char) (n : Nat) (cs : List Char) :
    scan first seg n (c :: cs) = scan first (c :: seg) (n + 1) cs := by
  rw [scan]
  exact fun h' => h h'

theorem scan_append_slash (rest : List Char) : ∀ (cs : List Char) (first : Bool) (seg : List Char) (n : Nat),
    scan first seg n (cs ++ '/' :: rest) = scan first seg n cs ++ scan false [] (n + cs.length + 1) rest
  | [], first, seg, n => by simp [scan]
  | c :: cs, first, seg, n => by
    by_cases h : c = '/'
    · subst h
      simp only [List.cons_append, scan, scan_append_slash rest cs, List.append_assoc, List.length_cons]
      rw [show n + 1 + cs.length + 1 = n + (cs.length + 1) + 1 by omega]
    · rw [List.cons_append, scan_cons h, scan_cons h, scan_append_slash rest cs, List.length_cons]
      rw [show n + 1 + cs.length + 1 = n + (cs.length + 1) + 1 by omega]

theorem scan_segment : ∀ {cs : List Char} (_ : '/' ∉ cs) (first : Bool) (seg : List Char) (n : Nat),
    scan first seg n cs = (partOf first (seg.reverse ++ cs)).toList.map (·, n + cs.length)
  | [], _, first, seg, n => by simp [scan]
  | c :: cs, h, first, seg, n => by
    simp only [List.mem_cons, not_or] at h
    rw [scan_cons (Ne.symm h.1), scan_segment h.2, List.length_cons,
      show n + 1 + cs.length = n + (cs.length + 1) by omega]
    simp

/-- Up to where a part ends, the same parts are read. -/
theorem scan_take : ∀ {cs : List Char} {first : Bool} {seg : List Char} {n : Nat} {l m : List (Part × Nat)}
    {q : Part} {stop : Nat}, scan first seg n cs = l ++ (q, stop) :: m →
    n ≤ stop ∧ scan first seg n (cs.take (stop - n)) = l ++ [(q, stop)]
  | [], first, seg, n, l, m, q, stop, h => by
    rw [scan] at h
    cases hp : partOf first seg.reverse with
    | none => simp [hp] at h
    | some p =>
      rw [hp] at h
      cases l with
      | nil =>
        cases h
        rw [List.take_nil, scan, hp]
        exact ⟨Nat.le_refl _, rfl⟩
      | cons x l => simp at h
  | c :: cs, first, seg, n, l, m, q, stop, h => by
    by_cases hc : c = '/'
    · subst hc
      rw [scan] at h
      cases hp : partOf first seg.reverse with
      | none =>
        rw [hp] at h
        obtain ⟨hle, ht⟩ := scan_take (by simpa using h)
        refine ⟨by omega, ?_⟩
        rw [show stop - n = stop - (n + 1) + 1 by omega, List.take_succ_cons, scan, hp, ht]
        rfl
      | some p =>
        rw [hp] at h
        cases l with
        | nil =>
          cases h
          rw [Nat.sub_self, List.take_zero, scan, hp]
          exact ⟨Nat.le_refl _, rfl⟩
        | cons x l =>
          obtain ⟨rfl, h⟩ := List.cons.inj h
          obtain ⟨hle, ht⟩ := scan_take (by simpa using h)
          refine ⟨by omega, ?_⟩
          rw [show stop - n = stop - (n + 1) + 1 by omega, List.take_succ_cons, scan, hp, ht]
          rfl
    · rw [scan_cons hc] at h
      obtain ⟨hle, ht⟩ := scan_take h
      refine ⟨by omega, ?_⟩
      rw [show stop - n = stop - (n + 1) + 1 by omega, List.take_succ_cons, scan_cons hc, ht]

/-! ## Parts of a text -/

def placed : List Char → List (Part × Nat)
  | '/' :: cs => (.root, 1) :: scan false [] 1 cs
  | cs => scan true [] 0 cs

theorem placedParts_eq (p : Path) : p.placedParts = placed p.text.toList := rfl

theorem placed_of_ne {cs : List Char} (h : cs.head? ≠ some '/') : placed cs = scan true [] 0 cs := by
  unfold placed
  split
  · exact absurd rfl h
  · rfl

theorem placed_append_slash {cs : List Char} (hne : cs ≠ []) (rest : List Char) :
    placed (cs ++ '/' :: rest) = placed cs ++ scan false [] (cs.length + 1) rest := by
  cases cs with
  | nil => exact absurd rfl hne
  | cons c cs =>
    by_cases hc : c = '/'
    · subst hc
      simp only [List.cons_append, placed, scan_append_slash rest cs, List.length_cons]
      rw [Nat.add_comm 1]
    · rw [placed_of_ne (by simpa using hc), placed_of_ne (by simpa using hc), scan_append_slash, Nat.zero_add]

theorem placed_take {cs : List Char} {l m : List (Part × Nat)} {q : Part} {stop : Nat}
    (h : placed cs = l ++ (q, stop) :: m) : placed (cs.take stop) = l ++ [(q, stop)] := by
  cases cs with
  | nil => simp [placed, scan, partOf] at h
  | cons c cs =>
    by_cases hc : c = '/'
    · subst hc
      rw [placed] at h
      cases l with
      | nil => cases h; rfl
      | cons x l =>
        obtain ⟨rfl, hcs⟩ := List.cons.inj h
        obtain ⟨hle, ht⟩ := scan_take hcs
        rw [show stop = stop - 1 + 1 by omega, List.take_succ_cons, placed, ht, show stop - 1 + 1 = stop by omega]
        rfl
    · rw [placed_of_ne (by simpa using hc)] at h
      have ht := (scan_take h).2
      rw [Nat.sub_zero] at ht
      rw [placed_of_ne, ht]
      cases stop with
      | zero => simp
      | succ stop => simpa using hc

/-! ## The parent -/

/-- A path with more than a root has a parent, and that has all parts but the last. -/
theorem parent?_eq {p : Path} {l : List (Part × Nat)} {x : Part × Nat} (h : p.placedParts = l ++ [x])
    (hx : l = [] → x.1 ≠ .root) : ∃ q, p.parent? = some q ∧ q.placedParts = l ∧ (l = [] → q.isEmpty = true) := by
  unfold parent?
  rw [h, List.reverse_append, List.reverse_singleton, List.singleton_append]
  rcases List.eq_nil_or_concat l with rfl | ⟨l, ⟨q, stop⟩, rfl⟩
  · obtain ⟨r, n⟩ := x
    refine ⟨⟨""⟩, ?_, rfl, fun _ => rfl⟩
    cases r with
    | root => exact absurd rfl (hx rfl)
    | _ => rfl
  · rw [List.concat_eq_append, List.reverse_append, List.reverse_singleton, List.singleton_append]
    refine ⟨⟨String.ofList (p.text.toList.take stop)⟩, by simp, ?_, by simp⟩
    rw [placedParts_eq, List.concat_eq_append, List.append_assoc] at h
    rw [placedParts_eq, String.toList_ofList, placed_take h]

theorem parent?_of_parts {p : Path} {ps : List Part} {a : Part} (h : p.parts = ps ++ [a])
    (ha : ps = [] → a ≠ .root) : ∃ q, p.parent? = some q ∧ q.parts = ps ∧ (ps = [] → q.isEmpty = true) := by
  rw [parts] at h
  obtain ⟨l, r, hlr, hl, hr⟩ := List.map_eq_append_iff.mp h
  obtain ⟨x, r', rfl, hx, hr'⟩ := List.map_eq_cons_iff.mp hr
  cases List.map_eq_nil_iff.mp hr'
  have hnil : l = [] ↔ ps = [] := by rw [← hl, List.map_eq_nil_iff]
  obtain ⟨q, hq, hql, hqe⟩ := parent?_eq hlr fun hn => hx ▸ ha (hnil.mp hn)
  refine ⟨q, hq, ?_, fun hn => hqe (hnil.mpr hn)⟩
  rw [parts, hql, hl]

/-! ## Joining -/

theorem endsWith_slash {s : String} : s.endsWith "/" = true ↔ ∃ cs, s.toList = cs ++ ['/'] := by
  have he : s.endsWith "/" = true ↔ "/".toList <:+ s.toList := by
    rw [String.endsWith, String.Slice.endsWith_string_iff, String.copy_toSlice]
  rw [he]
  constructor
  · rintro ⟨cs, hcs⟩
    exact ⟨cs, hcs.symm⟩
  · rintro ⟨cs, hcs⟩
    exact ⟨cs, hcs.symm⟩

/-- A segment behind a directory is one more part. A dot counts only where it is the first. -/
theorem join_placedParts (dir : Path) {s : String} (hs : '/' ∉ s.toList) :
    ∃ stop, (dir.join s).placedParts =
      dir.placedParts ++ (partOf dir.text.isEmpty s.toList).toList.map (·, stop) := by
  have hhead : s.toList.head? ≠ some '/' := fun h => hs (List.mem_of_mem_head? h)
  unfold join
  split
  · next he =>
    have ht : dir.text = "" := String.isEmpty_iff.mp he
    refine ⟨0 + s.toList.length, ?_⟩
    rw [placedParts_eq, placedParts_eq, placed_of_ne hhead, scan_segment hs, he, ht]
    rfl
  · next he =>
    have he : dir.text.isEmpty = false := by simpa using he
    have hne : dir.text.toList ≠ [] := by simpa using he
    split
    · next hsl =>
      obtain ⟨cs, hcs⟩ := endsWith_slash.mp hsl
      simp only [placedParts_eq, String.toList_append, hcs, List.append_assoc, List.singleton_append, he]
      cases cs with
      | nil => exact ⟨_, by rw [List.nil_append, placed, scan_segment hs]; rfl⟩
      | cons c cs =>
        refine ⟨(c :: cs).length + 1 + s.toList.length, ?_⟩
        rw [placed_append_slash (List.cons_ne_nil c cs), placed_append_slash (List.cons_ne_nil c cs), scan_segment hs,
          show scan false [] ((c :: cs).length + 1) [] = [] from rfl, List.append_nil]
        rfl
    · refine ⟨dir.text.toList.length + 1 + s.toList.length, ?_⟩
      rw [placedParts_eq, String.toList_append, String.toList_append, show "/".toList = ['/'] from rfl,
        List.append_assoc, List.singleton_append, placed_append_slash hne, scan_segment hs, he]
      rfl

/-- A name that means what it says. -/
structure IsName (s : String) : Prop where
  noSlash : '/' ∉ s.toList
  nonempty : s.toList ≠ []
  notHere : s.toList ≠ ['.']
  notUp : s.toList ≠ ['.', '.']

theorem IsName.partOf {s : String} (h : IsName s) (first : Bool) : partOf first s.toList = some (.name s) := by
  rw [Path.partOf, if_neg h.nonempty, if_neg h.notHere, if_neg h.notUp, String.ofList_toList]

variable {s : String} (dir : Path)

theorem join_name (h : IsName s) : ∃ stop, (dir.join s).placedParts = dir.placedParts ++ [(.name s, stop)] := by
  obtain ⟨stop, hp⟩ := dir.join_placedParts h.noSlash
  rw [h.partOf] at hp
  exact ⟨stop, hp⟩

theorem parts_join (h : IsName s) : (dir.join s).parts = dir.parts ++ [.name s] := by
  obtain ⟨stop, hp⟩ := dir.join_name h
  rw [parts, hp, List.map_append]
  rfl

theorem fileName?_join (h : IsName s) : (dir.join s).fileName? = some s := by
  rw [fileName?, dir.parts_join h, List.getLast?_concat]

theorem same_join {t : String} (hs : IsName s) (ht : IsName t) : (dir.join s).same (dir.join t) = true ↔ s = t := by
  rw [same, dir.parts_join hs, dir.parts_join ht, beq_iff_eq, List.append_cancel_left_eq]
  simp

theorem partsBefore_append (ps : List Part) (a b : Part) :
    partsBefore (ps ++ [a]) (ps ++ [b]) = a.before b := by
  have hirr (p : Part) : p.before p = false := by
    cases p with
    | name s => simp [Part.before]
    | _ => rfl
  induction ps with
  | nil => simp [partsBefore]
  | cons p ps ih => simp [partsBefore, ih, hirr]

theorem join_before {t : String} (hs : IsName s) (ht : IsName t) (h : s < t) :
    (dir.join s).before (dir.join t) = true := by
  rw [before, dir.parts_join hs, dir.parts_join ht, partsBefore_append]
  simpa [Part.before] using h

end Courier.Path

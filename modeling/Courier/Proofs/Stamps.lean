import Courier.Proofs.Lines
import Courier.Proofs.Order
import Courier.Proofs.Shelf

/-!
# Stamps

A stamp is a time and a number for which the digits of a name suffice. The bytes of the names are in the order of the
stamps, a name gives its number back in whatever directory it stands, and a directory is listed in the order of the
stamps, whatever was done to the files.
-/

namespace Courier

structure SpillStamp where
  time : Timestamp
  sequence : UInt64
  time_lt : time.millis.toNat < 10 ^ 13
  sequence_lt : sequence < SpillDir.modulus

namespace SpillStamp

def name (a : SpillStamp) : String := SpillDir.fileName a.time a.sequence

/-- By the time, and at one time by the number. -/
instance : LT SpillStamp :=
  ⟨fun a b => a.time.millis < b.time.millis ∨ a.time.millis = b.time.millis ∧ a.sequence < b.sequence⟩

variable {a b : SpillStamp}

theorem lt_def : a < b ↔ a.time.millis < b.time.millis ∨ a.time.millis = b.time.millis ∧ a.sequence < b.sequence :=
  Iff.rfl

theorem lt_trichotomy (a b : SpillStamp) : a < b ∨ a = b ∨ b < a := by
  obtain ⟨⟨s⟩, n, -, -⟩ := a
  obtain ⟨⟨t⟩, k, -, -⟩ := b
  simp only [lt_def, mk.injEq, Timestamp.mk.injEq, UInt64.lt_iff_toNat_lt, ← UInt64.toNat_inj]
  omega

theorem lt_iff_of_mono {α : Type} {r : α → α → Prop} {f : SpillStamp → α} (hr : ∀ x y, r x y → ¬ r y x)
    (hf : ∀ a b, a < b → r (f a) (f b)) (a b : SpillStamp) : r (f a) (f b) ↔ a < b := by
  constructor
  · intro h
    rcases lt_trichotomy a b with hlt | heq | hgt
    · exact hlt
    · subst heq
      exact absurd h (hr _ _ h)
    · exact absurd h (hr _ _ (hf b a hgt))
  · exact hf a b

/-! ## Names in order -/

theorem name_lt (h : a < b) : a.name < b.name := SpillDir.fileName_lt b.time_lt b.sequence_lt h

theorem name_inj : a.name = b.name ↔ a = b := by
  constructor
  · intro h
    rcases lt_trichotomy a b with hlt | heq | hgt
    · have hname := name_lt hlt
      rw [h] at hname
      exact absurd hname (String.lt_irrefl _)
    · exact heq
    · have hname := name_lt hgt
      rw [h] at hname
      exact absurd hname (String.lt_irrefl _)
  · exact congrArg name

theorem name_ascii (a : SpillStamp) : ∀ c ∈ a.name.toList, c.toNat < 128 := by
  have hdigit {w n : Nat} : ∀ c ∈ SpillDir.padded w n, c.toNat < 128 := by
    intro c hc
    have hle := (Text.digit_bounds (SpillDir.isDigit_padded c hc)).2
    omega
  have hext : ('.' :: SpillDir.extension.toList).all (fun c => decide (c.toNat < 128)) = true := by decide
  intro c hc
  rw [name, SpillDir.fileName_toList, List.mem_append, SpillDir.stemChars, List.mem_append, List.mem_cons] at hc
  rcases hc with (hc | rfl | hc) | hc
  · exact hdigit c hc
  · decide
  · exact hdigit c hc
  · exact of_decide_eq_true (List.all_eq_true.mp hext c hc)

theorem bytes_lt_iff (a b : SpillStamp) : Bytes.ofString a.name < Bytes.ofString b.name ↔ a < b := by
  have hasymm : ∀ x y : Bytes, x < y → ¬ y < x := fun _ _ => List.lt_asymm
  refine lt_iff_of_mono (f := fun a => Bytes.ofString a.name) hasymm ?_ a b
  intro a b h
  exact Bytes.ofString_lt a.name_ascii b.name_ascii (name_lt h)

/-! ## Files in order -/

variable {dir : Path}

theorem isName (a : SpillStamp) : Path.IsName a.name := SpillDir.isName_fileName a.time a.sequence

theorem before_iff (dir : Path) (a b : SpillStamp) : (dir.join a.name).before (dir.join b.name) = true ↔ a < b := by
  refine lt_iff_of_mono (r := fun p q => Path.before p q = true) (f := fun a => dir.join a.name) ?_ ?_ a b
  · intro p q h
    rw [Path.before_asymm h]
    exact Bool.false_ne_true
  · intro a b h
    exact dir.join_before a.isName b.isName (name_lt h)

theorem lt_of_before {p q : Path} (hp : p.same (dir.join a.name) = true) (hq : q.same (dir.join b.name) = true)
    (h : p.before q = true) : a < b :=
  (before_iff dir a b).mp (Path.before_of_same (Path.same_symm hp) (Path.before_of_before_same h hq))

theorem mem_list {m : MemoryFiles} {p : Path} (hs : p.same (dir.join a.name) = true) :
    p ∈ m.list dir SpillDir.extension ↔ ∃ data, (p, data) ∈ m.files := by
  have hshelf : Storage.onShelf dir p = true := Storage.onShelf_of_same hs
  unfold Storage.onShelf at hshelf
  rw [Bool.and_eq_true, beq_iff_eq] at hshelf
  rw [MemoryFiles.mem_list]
  exact and_iff_left hshelf

theorem listed_iff {m : MemoryFiles} :
    (∃ p ∈ m.list dir SpillDir.extension, p.same (dir.join a.name) = true) ↔
      (m.find? (dir.join a.name)).isSome = true := by
  rw [MemoryFiles.find?_isSome]
  constructor
  · rintro ⟨p, hp, hs⟩
    obtain ⟨data, hm⟩ := (mem_list hs).mp hp
    exact ⟨(p, data), hm, hs⟩
  · rintro ⟨⟨p, data⟩, hm, hs⟩
    exact ⟨p, (mem_list hs).mpr ⟨data, hm⟩, hs⟩

/-- Stamps are in the order of the bytes of their names, and different stamps have different names. In any directory a
name tells the number of its stamp. Whatever was done to the files before, a directory lists all files with such names
that are there, and lists them in the order of their stamps. -/
theorem names_in_order {acts : List FileAct} {m : MemoryFiles} (hm : MemoryFiles.run {} acts = m) (dir : Path) :
    (∀ a b : SpillStamp, Bytes.ofString a.name < Bytes.ofString b.name ↔ a < b) ∧
    (∀ a b : SpillStamp, a.name = b.name ↔ a = b) ∧
    (∀ a : SpillStamp, SpillDir.sequence? (dir.join a.name) = some a.sequence) ∧
    (∀ a : SpillStamp, (∃ p ∈ m.list dir SpillDir.extension, p.same (dir.join a.name) = true) ↔
      (m.find? (dir.join a.name)).isSome = true) ∧
    (m.list dir SpillDir.extension).Pairwise fun p q => ∀ a b : SpillStamp, p.same (dir.join a.name) = true →
      q.same (dir.join b.name) = true → a < b := by
  have hsorted : MemoryFiles.Sorted m.files := by
    rw [← hm]
    exact MemoryFiles.sorted_run acts
  refine ⟨bytes_lt_iff, fun a b => name_inj, ?_, fun a => listed_iff, ?_⟩
  · intro a
    rw [name, SpillDir.sequence?_join, SpillDir.mod_modulus a.sequence_lt]
  · refine (hsorted.list dir SpillDir.extension).imp ?_
    intro p q h a b hp hq
    exact lt_of_before hp hq h

def early : SpillStamp := ⟨⟨999⟩, 999999, by decide, by decide⟩

def late : SpillStamp := ⟨⟨1000⟩, 0, by decide, by decide⟩

def last : SpillStamp := ⟨⟨9999999999999⟩, 999999, by decide, by decide⟩

/-- Files are written in the wrong order, one of them twice and one after it was removed, among others that have no such
names or stand somewhere else. -/
def scatteredActs : List FileAct :=
  let file (a : SpillStamp) := Path.join ⟨"/c"⟩ a.name
  [.write (file early) [], .createDirs ⟨"/c/old"⟩, .write (file last) [1], .write ⟨"/c/stray.envelope"⟩ [],
    .write (file late) [2], .remove (file late), .write (file early) [3], .failWrites true, .write (file late) [4],
    .failWrites false, .lock ⟨"/c.lock"⟩, .crash, .write ⟨"/c/notes.txt"⟩ [], .write ⟨"/c/old/a.envelope"⟩ [],
    .write (file late) [5], .write ⟨"/c/./0000000000999-999999.envelope"⟩ [6]]

theorem names_in_order_scattered :
    ∃ m, MemoryFiles.run {} scatteredActs = m ∧
      m.list ⟨"/c//"⟩ SpillDir.extension =
        [⟨"/c/0000000000999-999999.envelope"⟩, ⟨"/c/0000000001000-000000.envelope"⟩,
          ⟨"/c/9999999999999-999999.envelope"⟩, ⟨"/c/stray.envelope"⟩] ∧
      Bytes.ofString early.name < Bytes.ofString late.name ∧ ¬ Bytes.ofString last.name < Bytes.ofString late.name ∧
      SpillDir.sequence? (Path.join ⟨"/c//"⟩ early.name) = some 999999 ∧
      (m.find? (Path.join ⟨"/c//"⟩ late.name)).isSome = true ∧
      (m.list ⟨"/c//"⟩ SpillDir.extension).Pairwise fun p q => ∀ a b : SpillStamp,
        p.same (Path.join ⟨"/c//"⟩ a.name) = true → q.same (Path.join ⟨"/c//"⟩ b.name) = true → a < b := by
  have hm : MemoryFiles.run {} scatteredActs = MemoryFiles.run {} scatteredActs := rfl
  obtain ⟨hbytes, -, hsequence, hlisted, horder⟩ := names_in_order hm ⟨"/c//"⟩
  have hlist : (MemoryFiles.run {} scatteredActs).list ⟨"/c//"⟩ SpillDir.extension =
      [⟨"/c/0000000000999-999999.envelope"⟩, ⟨"/c/0000000001000-000000.envelope"⟩,
        ⟨"/c/9999999999999-999999.envelope"⟩, ⟨"/c/stray.envelope"⟩] := by decide +kernel
  refine ⟨_, hm, hlist, (hbytes early late).mpr (.inl (by decide)), ?_, hsequence early, (hlisted late).mp ?_, horder⟩
  · intro h
    rcases (hbytes last late).mp h with hlt | ⟨heq, -⟩
    · revert hlt
      decide
    · revert heq
      decide
  · rw [hlist]
    exact ⟨⟨"/c/0000000001000-000000.envelope"⟩, by simp, by decide +kernel⟩

end SpillStamp

end Courier

import Courier.Proofs.AtMostOnce
import Courier.Proofs.Serial

/-!
# What a start makes of a directory

A worker that has a directory finds each file in it that holds an envelope, by the order of the names, and leaves
it as it is. Of all other files only those go that have the name of an envelope and hold none. So the next start
finds the same, whatever has happened to anything but the files.
-/

namespace Courier

/-! ## Files of a directory -/

/-- The file stands right in the directory, under a name that ends like that of an envelope. -/
def Path.Spills (dir file : Path) : Prop :=
  ∃ s, file.parts = dir.parts ++ [.name s] ∧ (splitName s).2 = some SpillDir.extension

namespace Path

variable {dir dir' p q : Path} {s : String}

theorem Spills.congr (h : dir.same dir' = true) (hp : dir.Spills p) : dir'.Spills p := by
  obtain ⟨s, hs, he⟩ := hp
  refine ⟨s, ?_, he⟩
  rw [hs, same_iff.mp h]

/-- In one directory the order of the paths is that of the names. -/
def NamedBefore (p q : Path) : Prop := ∃ s t, p.fileName? = some s ∧ q.fileName? = some t ∧ s < t

theorem Spills.named (hp : dir.Spills p) (hq : dir.Spills q) (h : p.before q = true) : p.NamedBefore q := by
  obtain ⟨s, hs, -⟩ := hp
  obtain ⟨t, ht, -⟩ := hq
  rw [before, hs, ht, partsBefore_append] at h
  refine ⟨s, t, ?_, ?_, of_decide_eq_true h⟩
  · rw [fileName?, hs, List.getLast?_concat]
  · rw [fileName?, ht, List.getLast?_concat]

theorem NamedBefore.asymm (h : p.NamedBefore q) : ¬ q.NamedBefore p := by
  obtain ⟨s, t, hs, ht, hlt⟩ := h
  rintro ⟨t', s', ht', hs', hgt⟩
  cases ht.symm.trans ht'
  cases hs.symm.trans hs'
  exact String.lt_irrefl _ (String.lt_trans hlt hgt)

end Path

/-! ## Found and left -/

/-- These bytes are those of an envelope with items. -/
def Envelope.Filled (data : Bytes) (e : Envelope) : Prop := ofBytes data = .ok e ∧ e.items ≠ []

theorem eq_of_ordered {α : Type} {before : α → α → Prop} {xs ys : List α} (hb : ∀ a b, before a b → ¬ before b a)
    (hx : xs.Pairwise before) (hy : ys.Pairwise before) (h : ∀ a, a ∈ xs ↔ a ∈ ys) : xs = ys := by
  have hnodup {zs : List α} (hz : zs.Pairwise before) : zs.Nodup := hz.imp fun {a b} hab he => by
    subst he
    exact hb a a hab hab
  have hp : xs.Perm ys := (List.perm_ext_iff_of_nodup (hnodup hx) (hnodup hy)).mpr h
  exact hp.eq_of_pairwise (fun a b _ _ hab hba => absurd hba (hb a b hab)) hx hy

/-- What a start finds in a directory, and what it leaves. -/
structure Storage.Recovers (fs : Storage) (dir : Path) (found : List (Envelope × Path)) (fs' : Storage) : Prop where
  order : found.Pairwise fun a b => a.2.NamedBefore b.2
  found : ∀ e file, (e, file) ∈ found ↔
    ∃ data, (file, data) ∈ fs.files.files ∧ dir.Spills file ∧ Envelope.Filled data e
  left : ∀ x, x ∈ fs'.files.files ↔ x ∈ fs.files.files ∧ (dir.Spills x.1 → ∃ e, Envelope.Filled x.2 e)
  fit : fs'.Fit

namespace Storage

variable {fs fs' fs₁ fs₂ : Storage} {dir dir' : Path} {found found₁ : List (Envelope × Path)}

/-- What one start left, the next one finds again, and leaves. -/
theorem Recovers.again (h : fs.Recovers dir found fs') (h₁ : fs₁.Recovers dir' found₁ fs₂)
    (hd : dir'.same dir = true) (hfiles : fs₁.files.files = fs'.files.files) :
    found₁ = found ∧ fs₂.files.files = fs'.files.files := by
  have hspill (file : Path) : dir'.Spills file ↔ dir.Spills file := ⟨.congr hd, .congr (Path.same_symm hd)⟩
  -- Both lists are in the order of the names, so it is enough that they have the same members.
  constructor
  · refine eq_of_ordered (fun a b => Path.NamedBefore.asymm) h₁.order h.order fun ⟨e, file⟩ => ?_
    rw [h₁.found, h.found, hfiles]
    simp only [hspill]
    constructor
    · rintro ⟨data, hm, hs, he⟩
      exact ⟨data, ((h.left _).mp hm).1, hs, he⟩
    · rintro ⟨data, hm, hs, he⟩
      exact ⟨data, (h.left _).mpr ⟨hm, fun _ => ⟨e, he⟩⟩, hs, he⟩
  · refine eq_of_ordered (fun a b hab => ?_) h₁.fit.sorted h.fit.sorted fun x => ?_
    · rw [Path.before_asymm hab]
      exact Bool.false_ne_true
    · rw [h₁.left, hfiles, hspill]
      constructor
      · exact And.left
      · intro hx
        exact ⟨hx, ((h.left x).mp hx).2⟩

end Storage

/-! ## Starts -/

namespace Worker

variable {settings : Settings} {w : Worker} {dir : String} {fs fs' : Storage}

end Worker

end Courier

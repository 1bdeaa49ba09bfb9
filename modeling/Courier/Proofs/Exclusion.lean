import Courier.Proofs.LockPath
import Courier.Proofs.Order
import Courier.Storage.Registry

/-!
# One holder

Whoever makes claims on directories, takes them up and gives them up, in whatever order: a lock has one holder at
most, and who holds none leaves all locks alone.
-/

namespace Courier

open DirClaim (lockPath)

/-! ## Taking up a claim -/

theorem MemoryFiles.isLocked_iff {m : MemoryFiles} {p : Path} :
    m.isLocked p = true ↔ ∃ l ∈ m.locks, l.same p = true := List.any_eq_true

theorem DirClaim.acquire_eq {fs : Storage} (hd : fs.denied = []) (c : DirClaim Path) :
    c.acquire fs =
      if c.disposed then (.ok false, c, fs)
      else if c.isAcquired then (.ok true, c, fs)
      else if fs.files.isLocked (lockPath c.dir) then
        (.ok false, c, { fs with files := fs.files.createDirs c.dir })
      else
        (.ok true, { c with lock := some (lockPath c.dir) },
          { fs with
            files := { fs.files.createDirs c.dir with locks := fs.files.locks ++ [lockPath c.dir] } }) := by
  have hdirs : fs.createDirs c.dir = (.ok (), { fs with files := fs.files.createDirs c.dir }) := by
    simp [Storage.createDirs, Storage.refusal?, hd]
  have hlocked : (fs.files.createDirs c.dir).isLocked (lockPath c.dir) = fs.files.isLocked (lockPath c.dir) := rfl
  unfold acquire
  simp only [FileSystem.createDirs, FileSystem.tryLock, hdirs, Storage.tryLock, Storage.refusal?, hd, List.contains_nil,
    Bool.false_eq_true, ite_false, MemoryFiles.tryLock, parentMissing?_lockPath, hlocked]
  by_cases hl : fs.files.isLocked (lockPath c.dir) = true
  · simp only [hl, ite_true]
  · simp only [hl, Bool.false_eq_true, ite_false]
    rfl

/-! ## Holders -/

inductive ClaimAct
  /-- A claim is made; the one made before under this name is let go. -/
  | claim (name : String) (dir : Path)
  | acquire (name : String)
  | dispose (name : String)
  /-- A claim is let go. -/
  | drop (name : String)

namespace Registry

section
variable {σ α : Type} {r : Registry σ α}

theorem lookup_cons (x : String × α) (held : List (String × α)) (name : String) :
    List.lookup name (x :: held) = if name = x.1 then some x.2 else held.lookup name := by
  rw [List.lookup_cons]
  by_cases h : name = x.1
  · rw [if_pos h, beq_iff_eq.mpr h]
  · rw [if_neg h, beq_false_of_ne h]

theorem find?_forget (r : Registry σ α) (name other : String) :
    (r.forget name).find? other = if other = name then none else r.find? other := by
  unfold find? forget
  simp only
  induction r.held with
  | nil => simp
  | cons x held ih =>
    by_cases hn : x.1 = name
    · rw [List.filter_cons_of_neg (by simp [hn]), ih, lookup_cons]
      by_cases ho : other = name
      · rw [if_pos ho, if_pos ho]
      · rw [if_neg ho, if_neg ho, if_neg (hn ▸ ho)]
    · rw [List.filter_cons_of_pos (by simpa using hn), lookup_cons, lookup_cons, ih]
      by_cases ho : other = x.1
      · rw [if_pos ho, if_pos ho, if_neg (ho ▸ hn)]
      · rw [if_neg ho, if_neg ho]

theorem find?_put (r : Registry σ α) (name other : String) (x : α) :
    (r.put name x).find? other = if other = name then some x else r.find? other := by
  have hf := r.find?_forget name other
  unfold find? at *
  unfold put
  rw [lookup_cons, hf]
  by_cases ho : other = name
  · rw [if_pos ho, if_pos ho]
  · rw [if_neg ho, if_neg ho, if_neg ho]

end

abbrev Claims := Registry Storage (DirClaim Path)

variable {r r' : Claims} {name : String} {c : DirClaim Path}

def act (r : Claims) : ClaimAct → Claims
  | .claim name dir => r.claim name dir
  | .acquire name => (r.acquire name).2
  | .dispose name => r.dispose name
  | .drop name => r.dropClaim name

def run (r : Claims) (acts : List ClaimAct) : Claims := acts.foldl act r

def Owns (r : Claims) (name : String) (p : Path) : Prop :=
  ∃ c l, r.find? name = some c ∧ c.lock = some l ∧ l.same p = true

/-- Nothing is denied, every holder has the lock beside its directory and is not done with it, locks that are taken
have holders, and a lock has one holder. -/
structure Exclusive (r : Claims) : Prop where
  granted : r.files.denied = []
  beside : ∀ name c l, r.find? name = some c → c.lock = some l → l = lockPath c.dir ∧ c.disposed = false
  table : ∀ p, r.files.files.isLocked p = true ↔ ∃ name, r.Owns name p
  single : ∀ name other p, r.Owns name p → r.Owns other p → name = other

theorem owns_of_find? (hf : ∀ name, r'.find? name = r.find? name) (name : String) (p : Path) :
    r'.Owns name p ↔ r.Owns name p := by
  unfold Owns
  rw [hf]

theorem Owns.same {p q : Path} (h : r.Owns name p) (hs : p.same q = true) : r.Owns name q := by
  obtain ⟨c, l, hc, hl, hp⟩ := h
  exact ⟨c, l, hc, hl, Path.same_trans hp hs⟩

structure Kept (r r' : Claims) : Prop where
  denied : r'.files.denied = r.files.denied
  locks : r'.files.files.locks = r.files.files.locks
  find? : ∀ name, r'.find? name = r.find? name

theorem Exclusive.kept (h : r.Exclusive) (hk : r.Kept r') : r'.Exclusive := by
  have howns := owns_of_find? hk.find?
  refine ⟨hk.denied.trans h.granted, ?_, ?_, ?_⟩
  · intro name c l hc
    exact h.beside name c l (hk.find? name ▸ hc)
  · intro p
    unfold MemoryFiles.isLocked
    rw [hk.locks]
    simp only [howns]
    exact h.table p
  · intro name other p hp hq
    exact h.single name other p ((howns name p).mp hp) ((howns other p).mp hq)

theorem Exclusive.not_owns_free {p q : Path} (h : r.Exclusive) (hfree : r.files.files.isLocked q = false)
    (hs : q.same p = true) (name : String) : ¬ r.Owns name p := by
  intro ho
  have hl := (h.table q).mpr ⟨name, ho.same (Path.same_symm hs)⟩
  rw [hfree] at hl
  cases hl

theorem Exclusive.not_owns_before (h : r.Exclusive) (hc : r.find? name = some c)
    (hfree : r.files.files.isLocked (lockPath c.dir) = false) (p : Path) : ¬ r.Owns name p := by
  intro ho
  obtain ⟨c', l, hc', hl, hp⟩ := ho
  cases hc.symm.trans hc'
  obtain ⟨rfl, -⟩ := h.beside name c l hc hl
  exact h.not_owns_free hfree hp name ⟨c, _, hc, hl, hp⟩

theorem owns_taken (hf : ∀ other, r'.find? other =
      if other = name then some { c with lock := some (lockPath c.dir) } else r.find? other)
    (other : String) (p : Path) :
    r'.Owns other p ↔ (other = name ∧ (lockPath c.dir).same p = true) ∨ (other ≠ name ∧ r.Owns other p) := by
  unfold Owns
  rw [hf]
  by_cases ho : other = name
  · simp [ho]
  · simp [ho]

/-- Somebody takes a lock that is free. -/
theorem Exclusive.taken (h : r.Exclusive) (hc : r.find? name = some c) (hd : c.disposed = false)
    (hfree : r.files.files.isLocked (lockPath c.dir) = false) (hdenied : r'.files.denied = r.files.denied)
    (hlocks : r'.files.files.locks = r.files.files.locks ++ [lockPath c.dir])
    (hf : ∀ other, r'.find? other =
      if other = name then some { c with lock := some (lockPath c.dir) } else r.find? other) : r'.Exclusive := by
  have howns := owns_taken hf
  have hnone := h.not_owns_before hc hfree
  refine ⟨hdenied.trans h.granted, ?_, ?_, ?_⟩
  · intro other c' l hc' hl
    rw [hf] at hc'
    by_cases ho : other = name
    · rw [if_pos ho] at hc'
      cases hc'
      cases hl
      exact ⟨rfl, hd⟩
    · rw [if_neg ho] at hc'
      exact h.beside other c' l hc' hl
  · intro p
    -- the table has one more lock, which is the one that the taker has
    have hadd : r'.files.files.isLocked p = true ↔
        r.files.files.isLocked p = true ∨ (lockPath c.dir).same p = true := by
      simp only [MemoryFiles.isLocked, MemoryFiles.holds, hlocks, List.any_append, Bool.or_eq_true, List.any_cons,
        List.any_nil, Bool.or_false]
    rw [hadd, h.table]
    simp only [howns]
    constructor
    · intro hp
      rcases hp with ⟨other, ho⟩ | hs
      · refine ⟨other, Or.inr ⟨?_, ho⟩⟩
        intro hother
        exact hnone p (hother ▸ ho)
      · exact ⟨name, Or.inl ⟨rfl, hs⟩⟩
    · intro hp
      obtain ⟨other, ⟨-, hs⟩ | ⟨-, ho⟩⟩ := hp
      · exact Or.inr hs
      · exact Or.inl ⟨other, ho⟩
  · intro other other' p hp hq
    rw [howns] at hp hq
    rcases hp with ⟨rfl, hs⟩ | ⟨-, ho⟩
    · rcases hq with ⟨rfl, -⟩ | ⟨-, ho'⟩
      · rfl
      · exact absurd ho' (h.not_owns_free hfree hs other')
    · rcases hq with ⟨-, hs⟩ | ⟨-, ho'⟩
      · exact absurd ho (h.not_owns_free hfree hs other)
      · exact h.single other other' p ho ho'

/-- Somebody lets go what it holds, or has held nothing. -/
theorem Exclusive.released (h : r.Exclusive) (name : String) (hdenied : r'.files.denied = r.files.denied)
    (hlocks : ∀ p, r'.files.files.isLocked p = true ↔ r.files.files.isLocked p = true ∧ ¬ r.Owns name p)
    (hf : ∀ other, other ≠ name → r'.find? other = r.find? other)
    (hn : ∀ c, r'.find? name = some c → c.lock = none) : r'.Exclusive := by
  have howns (other : String) (p : Path) : r'.Owns other p ↔ other ≠ name ∧ r.Owns other p := by
    by_cases ho : other = name
    · subst ho
      constructor
      · intro hp
        obtain ⟨c, l, hc, hl, -⟩ := hp
        rw [hn c hc] at hl
        cases hl
      · intro hp
        exact absurd rfl hp.1
    · unfold Owns
      simp [hf other ho, ho]
  refine ⟨hdenied.trans h.granted, ?_, ?_, ?_⟩
  · intro other c l hc hl
    by_cases ho : other = name
    · subst ho
      rw [hn c hc] at hl
      cases hl
    · rw [hf other ho] at hc
      exact h.beside other c l hc hl
  · intro p
    rw [hlocks, h.table]
    simp only [howns]
    constructor
    · intro hp
      obtain ⟨⟨other, ho⟩, hnot⟩ := hp
      refine ⟨other, ?_, ho⟩
      intro hother
      exact hnot (hother ▸ ho)
    · intro hp
      obtain ⟨other, hne, ho⟩ := hp
      refine ⟨⟨other, ho⟩, ?_⟩
      intro hname
      exact hne (h.single other name p ho hname)
  · intro other other' p hp hq
    exact h.single other other' p ((howns other p).mp hp).2 ((howns other' p).mp hq).2

/-! ## Each act -/

theorem isLocked_dispose (hc : r.find? name = some c) (p : Path) :
    (c.dispose r.files).2.files.isLocked p = true ↔ r.files.files.isLocked p = true ∧ ¬ r.Owns name p := by
  have howns : r.Owns name p ↔ ∃ l, c.lock = some l ∧ l.same p = true := by
    unfold Owns
    simp [hc]
  rw [howns]
  unfold DirClaim.dispose
  cases hl : c.lock with
  | none => simp
  | some l =>
    simp only [FileSystem.unlock, Storage.unlock, MemoryFiles.unlock, MemoryFiles.isLocked_iff, List.mem_filter]
    constructor
    · intro hp
      obtain ⟨q, ⟨hq, hne⟩, hs⟩ := hp
      refine ⟨⟨q, hq, hs⟩, ?_⟩
      intro hlp
      obtain ⟨l', hl', hs'⟩ := hlp
      cases hl'
      have hsame : q.same l = true := Path.same_trans hs (Path.same_symm hs')
      simp [hsame] at hne
    · intro hp
      obtain ⟨⟨q, hq, hs⟩, hne⟩ := hp
      refine ⟨q, ⟨hq, ?_⟩, hs⟩
      by_cases hql : q.same l = true
      · exact absurd ⟨l, rfl, Path.same_trans (Path.same_symm hql) hs⟩ hne
      · simpa using hql

theorem denied_dispose (c : DirClaim Path) (fs : Storage) : (c.dispose fs).2.denied = fs.denied := by
  unfold DirClaim.dispose
  cases c.lock <;> rfl

theorem dispose_of_none (hl : c.lock = none) (fs : Storage) : (c.dispose fs).2 = fs := by
  unfold DirClaim.dispose
  rw [hl]

theorem find?_dropClaim (r : Claims) (name other : String) :
    (r.dropClaim name).find? other = if other = name then none else r.find? other := by
  unfold dropClaim
  cases hc : r.find? name with
  | none =>
    by_cases ho : other = name
    · rw [if_pos ho, ho]
      exact hc
    · rw [if_neg ho]
  | some c => exact r.find?_forget name other

theorem find?_claim (r : Claims) (name other : String) (dir : Path) :
    (r.claim name dir).find? other = if other = name then some { dir } else r.find? other := by
  unfold claim
  rw [find?_put, find?_dropClaim]
  by_cases ho : other = name
  · rw [if_pos ho, if_pos ho]
  · rw [if_neg ho, if_neg ho, if_neg ho]

theorem find?_dispose (r : Claims) (name other : String) :
    (r.dispose name).find? other =
      if other = name then (r.find? name).map fun c => { c with lock := none, disposed := true } else r.find? other := by
  unfold dispose
  cases hc : r.find? name with
  | none =>
    by_cases ho : other = name
    · rw [if_pos ho, ho]
      exact hc
    · rw [if_neg ho]
  | some c => exact find?_put { r with files := (c.dispose r.files).2 } name other _

theorem Exclusive.dropClaim (h : r.Exclusive) (name : String) : (r.dropClaim name).Exclusive := by
  cases hc : r.find? name with
  | none =>
    unfold Registry.dropClaim
    rw [hc]
    exact h
  | some c =>
    have hfiles : (r.dropClaim name).files = (c.dispose r.files).2 := by
      unfold Registry.dropClaim
      rw [hc]
    apply h.released name
    · rw [hfiles]
      exact denied_dispose c r.files
    · rw [hfiles]
      exact isLocked_dispose hc
    · intro other ho
      rw [find?_dropClaim, if_neg ho]
    · intro c' hc'
      rw [find?_dropClaim, if_pos rfl] at hc'
      cases hc'

theorem Exclusive.claim (h : r.Exclusive) (name : String) (dir : Path) : (r.claim name dir).Exclusive := by
  have hnone (p : Path) : ¬ (r.dropClaim name).Owns name p := by
    intro ho
    obtain ⟨c, l, hc, -⟩ := ho
    rw [find?_dropClaim, if_pos rfl] at hc
    cases hc
  apply (h.dropClaim name).released name
  · rfl
  · intro p
    exact ⟨fun hp => ⟨hp, hnone p⟩, fun hp => hp.1⟩
  · intro other ho
    rw [find?_claim, if_neg ho, find?_dropClaim, if_neg ho]
  · intro c hc
    rw [find?_claim, if_pos rfl] at hc
    cases hc
    rfl

theorem Exclusive.dispose (h : r.Exclusive) (name : String) : (r.dispose name).Exclusive := by
  cases hc : r.find? name with
  | none =>
    unfold Registry.dispose
    rw [hc]
    exact h
  | some c =>
    have hfiles : (r.dispose name).files = (c.dispose r.files).2 := by
      unfold Registry.dispose
      rw [hc]
      rfl
    apply h.released name
    · rw [hfiles]
      exact denied_dispose c r.files
    · rw [hfiles]
      exact isLocked_dispose hc
    · intro other ho
      rw [find?_dispose, if_neg ho]
    · intro c' hc'
      rw [find?_dispose, if_pos rfl, hc] at hc'
      cases hc'
      rfl

theorem find?_putSame (hc : r.find? name = some c) (files : Storage) (other : String) :
    (Registry.put { r with files := files } name c).find? other = r.find? other := by
  have hput := find?_put { r with files := files } name other c
  rw [hput]
  by_cases ho : other = name
  · rw [if_pos ho, ho, hc]
  · rw [if_neg ho]
    rfl

/-- Whoever tries to take up a claim is told whether it is its own: nothing changes but directories, or it gets a lock
that was free. -/
theorem acquire_cases (hd : r.files.denied = []) (hc : r.find? name = some c) :
    (∃ yes, (r.acquire name).1 = some (.ok yes) ∧ (yes = true ↔ c.disposed = false ∧ c.isAcquired = true) ∧
      (c.disposed = true ∨ c.isAcquired = true ∨ r.files.files.isLocked (lockPath c.dir) = true) ∧
      r.Kept (r.acquire name).2) ∨
    ((r.acquire name).1 = some (.ok true) ∧ c.disposed = false ∧ c.isAcquired = false ∧
      r.files.files.isLocked (lockPath c.dir) = false ∧ (r.acquire name).2.files.denied = r.files.denied ∧
      (r.acquire name).2.files.files.locks = r.files.files.locks ++ [lockPath c.dir] ∧
      ∀ other, (r.acquire name).2.find? other =
        if other = name then some { c with lock := some (lockPath c.dir) } else r.find? other) := by
  unfold Registry.acquire
  rw [hc]
  simp only [DirClaim.acquire_eq hd]
  by_cases hdisposed : c.disposed = true
  · rw [if_pos hdisposed]
    left
    exact ⟨false, rfl, by simp [hdisposed], Or.inl hdisposed, rfl, rfl, find?_putSame hc _⟩
  rw [if_neg hdisposed]
  by_cases ha : c.isAcquired = true
  · rw [if_pos ha]
    left
    exact ⟨true, rfl, by simp [hdisposed, ha], Or.inr (Or.inl ha), rfl, rfl, find?_putSame hc _⟩
  rw [if_neg ha]
  by_cases hl : r.files.files.isLocked (lockPath c.dir) = true
  · rw [if_pos hl]
    left
    exact ⟨false, rfl, by simp [ha], Or.inr (Or.inr hl), rfl, rfl, find?_putSame hc _⟩
  · rw [if_neg hl]
    right
    refine ⟨rfl, by simpa using hdisposed, by simpa using ha, by simpa using hl, rfl, rfl, ?_⟩
    intro other
    exact find?_put { r with files := _ } name other _

theorem Exclusive.acquire (h : r.Exclusive) (name : String) : (r.acquire name).2.Exclusive := by
  cases hc : r.find? name with
  | none =>
    unfold Registry.acquire
    rw [hc]
    exact h
  | some c =>
    rcases acquire_cases h.granted hc with ⟨_, -, -, -, hk⟩ | ⟨-, hd, -, hl, hdenied, hlocks, hf⟩
    · exact h.kept hk
    · exact h.taken hc hd hl hdenied hlocks hf

theorem Exclusive.act (h : r.Exclusive) (a : ClaimAct) : (r.act a).Exclusive := by
  cases a with
  | claim name dir => exact h.claim name dir
  | acquire name => exact h.acquire name
  | dispose name => exact h.dispose name
  | drop name => exact h.dropClaim name

theorem Exclusive.run (h : r.Exclusive) (acts : List ClaimAct) : (r.run acts).Exclusive := by
  induction acts generalizing r with
  | nil => exact h
  | cons a acts ih => exact ih (h.act a)

theorem exclusive_of_none {files : Storage} (hd : files.denied = []) (hl : files.files.locks = []) :
    (⟨files, []⟩ : Claims).Exclusive := by
  refine ⟨hd, nofun, ?_, ?_⟩
  · intro p
    simp [MemoryFiles.isLocked, MemoryFiles.holds, hl, Owns, Registry.find?]
  · intro name other p hp
    obtain ⟨c, l, hc, -⟩ := hp
    cases hc

/-! ## What holders see -/

theorem Exclusive.owns_iff (h : r.Exclusive) (name : String) (p : Path) :
    r.Owns name p ↔ ∃ c, r.find? name = some c ∧ c.isAcquired = true ∧ (lockPath c.dir).same p = true := by
  constructor
  · intro ho
    obtain ⟨c, l, hc, hl, hs⟩ := ho
    obtain ⟨rfl, -⟩ := h.beside name c l hc hl
    exact ⟨c, hc, by simp [DirClaim.isAcquired, hl], hs⟩
  · intro ho
    obtain ⟨c, hc, ha, hs⟩ := ho
    obtain ⟨l, hl⟩ := Option.isSome_iff_exists.mp ha
    obtain ⟨rfl, -⟩ := h.beside name c l hc hl
    exact ⟨c, _, hc, hl, hs⟩

theorem Exclusive.disposed_of_acquired (h : r.Exclusive) (hc : r.find? name = some c) (ha : c.isAcquired = true) :
    c.disposed = false := by
  obtain ⟨l, hl⟩ := Option.isSome_iff_exists.mp ha
  exact (h.beside name c l hc hl).2

theorem Exclusive.acquire_iff (h : r.Exclusive) (hc : r.find? name = some c) :
    ∃ yes c', (r.acquire name).1 = some (.ok yes) ∧ (r.acquire name).2.find? name = some c' ∧ c'.isAcquired = yes ∧
      (yes = true ↔ c.disposed = false ∧ (c.isAcquired = true ∨ ∀ other c', other ≠ name →
        r.find? other = some c' → (lockPath c'.dir).same (lockPath c.dir) = true → c'.isAcquired = false)) := by
  rcases acquire_cases h.granted hc with ⟨yes, hreply, hyes, hwhy, hk⟩ | ⟨hreply, hd, ha, hl, -, -, hf⟩
  · refine ⟨yes, c, hreply, (hk.find? name).trans hc, ?_, ?_⟩
    · by_cases ha : c.isAcquired = true
      · rw [ha]
        exact (hyes.mpr ⟨h.disposed_of_acquired hc ha, ha⟩).symm
      · have hno : ¬ yes = true := fun hy => ha (hyes.mp hy).2
        simp only [Bool.not_eq_true] at ha hno
        rw [ha, hno]
    · rw [hyes]
      constructor
      · intro hown
        exact ⟨hown.1, Or.inl hown.2⟩
      · intro hfree
        obtain ⟨hd, ha | hothers⟩ := hfree
        · exact ⟨hd, ha⟩
        · rcases hwhy with hd' | ha | hl
          · exact absurd (hd.symm.trans hd') nofun
          · exact ⟨hd, ha⟩
          · obtain ⟨other, ho⟩ := (h.table _).mp hl
            obtain ⟨c', hc', ha', hs⟩ := (h.owns_iff other _).mp ho
            by_cases hname : other = name
            · subst hname
              cases hc.symm.trans hc'
              exact ⟨hd, ha'⟩
            · exact absurd (ha'.symm.trans (hothers other c' hname hc' hs)) nofun
  · have hfind := hf name
    rw [if_pos rfl] at hfind
    refine ⟨true, _, hreply, hfind, rfl, ?_⟩
    refine ⟨fun _ => ⟨hd, Or.inr ?_⟩, fun _ => rfl⟩
    intro other c' _ hc' hs
    by_cases ha' : c'.isAcquired = true
    · have hlocked := (h.table (lockPath c.dir)).mpr ⟨other, (h.owns_iff other _).mpr ⟨c', hc', ha', hs⟩⟩
      exact absurd (hl.symm.trans hlocked) nofun
    · simpa using ha'

/-! ## Claims that were given up -/

/-- What is under this name, if anything, was given up. -/
def Spent (r : Claims) (name : String) : Prop := ∀ c, r.find? name = some c → c.disposed = true

theorem Spent.of_find? (hs : r.Spent name) (hf : r'.find? name = r.find? name) : r'.Spent name := by
  intro c hc
  exact hs c (hf ▸ hc)

theorem Spent.acquire (hs : r.Spent name) (h : r.Exclusive) (other : String) : (r.acquire other).2.Spent name := by
  cases hc : r.find? other with
  | none =>
    unfold Registry.acquire
    rw [hc]
    exact hs
  | some c =>
    rcases acquire_cases h.granted hc with ⟨_, -, -, -, hk⟩ | ⟨-, hd, -, -, -, -, hf⟩
    · exact hs.of_find? (hk.find? name)
    · have hne : name ≠ other := by
        intro ho
        subst ho
        exact absurd (hd.symm.trans (hs c hc)) nofun
      apply hs.of_find?
      rw [hf, if_neg hne]

theorem Spent.dispose (hs : r.Spent name) (other : String) : (r.dispose other).Spent name := by
  intro c hc
  rw [find?_dispose] at hc
  by_cases ho : name = other
  · rw [if_pos ho] at hc
    obtain ⟨c, -, rfl⟩ := Option.map_eq_some_iff.mp hc
    rfl
  · rw [if_neg ho] at hc
    exact hs c hc

theorem Spent.dropClaim (hs : r.Spent name) (other : String) : (r.dropClaim other).Spent name := by
  intro c hc
  rw [find?_dropClaim] at hc
  by_cases ho : name = other
  · rw [if_pos ho] at hc
    cases hc
  · rw [if_neg ho] at hc
    exact hs c hc

theorem Spent.act (hs : r.Spent name) (h : r.Exclusive) {a : ClaimAct} (ha : ∀ dir, a ≠ .claim name dir) :
    (r.act a).Spent name := by
  cases a with
  | claim other dir =>
    have hne : name ≠ other := by
      intro ho
      exact ha dir (ho ▸ rfl)
    apply hs.of_find?
    exact (find?_claim r other name dir).trans (if_neg hne)
  | acquire other => exact hs.acquire h other
  | dispose other => exact hs.dispose other
  | drop other => exact hs.dropClaim other

theorem Spent.run (hs : r.Spent name) (h : r.Exclusive) {acts : List ClaimAct}
    (ha : ∀ dir, .claim name dir ∉ acts) : (r.run acts).Spent name := by
  induction acts generalizing r with
  | nil => exact hs
  | cons a acts ih =>
    apply ih
    · apply hs.act h
      intro dir hclaim
      exact ha dir (hclaim ▸ List.mem_cons_self)
    · exact h.act a
    · intro dir hm
      exact ha dir (List.mem_cons_of_mem a hm)

/-- Whatever is done with claims on files that are not locked yet: a lock has one holder at most, and exactly the locks
of holders are taken. Who tries to take up a claim is told whether it holds the lock then, which it does unless it gave
the claim up or somebody else holds the lock. Who holds none frees none, and who gave a claim up never holds its lock
again. -/
theorem one_holder {files : Storage} (hd : files.denied = []) (hl : files.files.locks = []) {acts : List ClaimAct}
    (hr : run ⟨files, []⟩ acts = r) :
    (∀ name other c c', r.find? name = some c → r.find? other = some c' → c.isAcquired = true →
      c'.isAcquired = true → (lockPath c.dir).same (lockPath c'.dir) = true → name = other) ∧
    (∀ p, r.files.files.isLocked p = true ↔
      ∃ name c, r.find? name = some c ∧ c.isAcquired = true ∧ (lockPath c.dir).same p = true) ∧
    (∀ name c, r.find? name = some c →
      ∃ yes c', (r.acquire name).1 = some (.ok yes) ∧ (r.acquire name).2.find? name = some c' ∧ c'.isAcquired = yes ∧
        (yes = true ↔ c.disposed = false ∧ (c.isAcquired = true ∨ ∀ other c', other ≠ name →
          r.find? other = some c' → (lockPath c'.dir).same (lockPath c.dir) = true → c'.isAcquired = false))) ∧
    (∀ name c, r.find? name = some c → c.isAcquired = false →
      (r.dispose name).files = r.files ∧ (r.dropClaim name).files = r.files) ∧
    (∀ name c, r.find? name = some c → c.disposed = true → c.isAcquired = false ∧
      ∀ later, (∀ dir, .claim name dir ∉ later) → ∀ c', (r.run later).find? name = some c' → c'.isAcquired = false) := by
  have h : r.Exclusive := hr ▸ (exclusive_of_none hd hl).run acts
  refine ⟨?_, ?_, ?_, ?_, ?_⟩
  · intro name other c c' hc hc' ha ha' hs
    apply h.single name other (lockPath c'.dir)
    · exact (h.owns_iff name _).mpr ⟨c, hc, ha, hs⟩
    · exact (h.owns_iff other _).mpr ⟨c', hc', ha', Path.same_refl _⟩
  · intro p
    rw [h.table]
    simp only [h.owns_iff]
  · intro name c hc
    exact h.acquire_iff hc
  · intro name c hc ha
    have hnone : c.lock = none := by simpa [DirClaim.isAcquired] using ha
    have hfiles := dispose_of_none hnone r.files
    constructor
    · unfold Registry.dispose
      rw [hc]
      exact hfiles
    · unfold Registry.dropClaim
      rw [hc]
      exact hfiles
  · intro name c hc hdisposed
    have hspent : r.Spent name := by
      intro c' hc'
      cases hc.symm.trans hc'
      exact hdisposed
    have hfree {r' : Claims} (h' : r'.Exclusive) (hs : r'.Spent name) {c' : DirClaim Path}
        (hc' : r'.find? name = some c') : c'.isAcquired = false := by
      by_cases ha : c'.isAcquired = true
      · exact absurd ((h'.disposed_of_acquired hc' ha).symm.trans (hs c' hc')) nofun
      · simpa using ha
    refine ⟨hfree h hspent hc, ?_⟩
    intro later hlater c' hc'
    exact hfree (h.run later) (hspent.run h hlater) hc'

/-- Two claims on one directory, spelled differently, and one on another. -/
def rivals : List ClaimAct :=
  [.claim "a" ⟨"/cache"⟩, .claim "b" ⟨"//cache/./"⟩, .claim "c" ⟨"/other"⟩, .acquire "b", .acquire "a", .acquire "c",
    .dispose "b", .acquire "a", .acquire "b"]

theorem one_holder_rivals :
    ({} : Storage).denied = [] ∧ ({} : Storage).files.locks = [] ∧
    (run ⟨{}, []⟩ (rivals.take 5)).files.files.locks = [⟨"/cache.lock"⟩] ∧
    (run ⟨{}, []⟩ rivals).files.files.locks = [⟨"/other.lock"⟩, ⟨"/cache.lock"⟩] ∧
    ((run ⟨{}, []⟩ rivals).find? "a").map DirClaim.isAcquired = some true ∧
    ((run ⟨{}, []⟩ rivals).find? "b").map DirClaim.disposed = some true ∧
    (∀ other c c', (run ⟨{}, []⟩ rivals).find? "a" = some c → (run ⟨{}, []⟩ rivals).find? other = some c' →
      c.isAcquired = true → c'.isAcquired = true → (lockPath c.dir).same (lockPath c'.dir) = true → "a" = other) := by
  have hd : ({} : Storage).denied = [] := rfl
  have hl : ({} : Storage).files.locks = [] := rfl
  have hr : run ⟨{}, []⟩ rivals = run ⟨{}, []⟩ rivals := rfl
  obtain ⟨hsingle, -⟩ := one_holder hd hl hr
  refine ⟨hd, hl, ?_, ?_, ?_, ?_, ?_⟩
  · decide +kernel
  · decide +kernel
  · decide +kernel
  · decide +kernel
  · intro other c c'
    exact hsingle "a" other c c'

end Registry

end Courier

import Courier.Proofs.Exclusion

/-!
# Dead holders

A crash frees all locks. Who held one then is dead, but its claim is still there and is let go some day: that frees the
lock of whoever has taken it since. As long as nobody is robbed like this, the living hold their locks as if there were
no dead.
-/

namespace Courier

open DirClaim (lockPath)

inductive CrashAct
  | act (a : ClaimAct)
  | crash

/-- Whose claim is let go. -/
def ClaimAct.lets? : ClaimAct → Option String
  | .claim name _ => some name
  | .acquire _ => none
  | .dispose name => some name
  | .drop name => some name

/-- Whose claim goes, perhaps for a new one under the same name. -/
def ClaimAct.ends? : ClaimAct → Option String
  | .claim name _ => some name
  | .acquire _ => none
  | .dispose _ => none
  | .drop name => some name

namespace Registry

variable {r r' : Claims} {a : ClaimAct} {name other : String} {p : Path}

def crash (r : Claims) : Claims := { r with files := { r.files with files := r.files.files.crash } }

theorem Kept.refl (r : Claims) : r.Kept r := ⟨rfl, rfl, fun _ => rfl⟩

theorem files_lets (ha : a.lets? = some name) : (r.act a).files = (r.dispose name).files := by
  have hdrop : (r.dropClaim name).files = (r.dispose name).files := by
    unfold dropClaim dispose
    cases r.find? name <;> rfl
  cases a with
  | claim _ _ =>
    cases ha
    exact hdrop
  | acquire _ => cases ha
  | dispose _ =>
    cases ha
    rfl
  | drop _ =>
    cases ha
    exact hdrop

theorem isLocked_lets (ha : a.lets? = some name) (p : Path) :
    (r.act a).files.files.isLocked p = true ↔ r.files.files.isLocked p = true ∧ ¬ r.Owns name p := by
  rw [files_lets ha]
  unfold Registry.dispose
  cases hc : r.find? name with
  | none =>
    have hnone : ¬ r.Owns name p := by
      intro ho
      obtain ⟨c, l, hc', -⟩ := ho
      rw [hc] at hc'
      cases hc'
    exact ⟨fun h => ⟨h, hnone⟩, fun h => h.1⟩
  | some c => exact isLocked_dispose hc p

theorem denied_lets (ha : a.lets? = some name) : (r.act a).files.denied = r.files.denied := by
  rw [files_lets ha]
  unfold Registry.dispose
  cases r.find? name with
  | none => rfl
  | some c => exact denied_dispose c r.files

theorem locks_lets (ha : a.lets? = some name) (hn : ∀ p, r.Owns name p → r.files.files.isLocked p = false) :
    (r.act a).files.files.locks = r.files.files.locks := by
  rw [files_lets ha]
  unfold Registry.dispose
  cases hc : r.find? name with
  | none => rfl
  | some c =>
    simp only [DirClaim.dispose]
    cases hl : c.lock with
    | none => rfl
    | some l =>
      have hfree := hn l ⟨c, l, hc, hl, l.same_refl⟩
      apply List.filter_eq_self.mpr
      intro q hq
      have hsame : q.same l = false := by
        by_cases hs : q.same l = true
        · have hlocked := MemoryFiles.isLocked_iff.mpr ⟨q, hq, hs⟩
          exact absurd (hfree.symm.trans hlocked) nofun
        · simpa using hs
      rw [hsame]
      rfl

theorem find?_lets (ha : a.lets? = some name) (ho : other ≠ name) : (r.act a).find? other = r.find? other := by
  cases a with
  | claim _ dir =>
    cases ha
    exact (find?_claim r name other dir).trans (if_neg ho)
  | acquire _ => cases ha
  | dispose _ =>
    cases ha
    exact (find?_dispose r name other).trans (if_neg ho)
  | drop _ =>
    cases ha
    exact (find?_dropClaim r name other).trans (if_neg ho)

theorem files_acquire (r : Claims) (name : String) :
    (r.acquire name).2.files = ((r.find? name).map fun c => (c.acquire r.files).2.2).getD r.files := by
  unfold acquire
  cases r.find? name <;> rfl

theorem find?_acquire (r : Claims) (name other : String) :
    (r.acquire name).2.find? other =
      if other = name then (r.find? name).map fun c => (c.acquire r.files).2.1 else r.find? other := by
  unfold acquire
  cases hc : r.find? name with
  | none =>
    by_cases ho : other = name
    · rw [if_pos ho, ho]
      exact hc
    · rw [if_neg ho]
  | some c => exact find?_put { r with files := (c.acquire r.files).2.2 } name other _

end Registry

/-! ## The dead and the living -/

open Registry (Claims)

/-- Claims, and who held a lock when there was a crash. -/
structure Claimants where
  claims : Claims
  dead : String → Bool := fun _ => false

namespace Claimants

variable {s s' : Claimants} {a : ClaimAct} {name other : String} {c : DirClaim Path} {p : Path}

def crash (s : Claimants) : Claimants where
  claims := s.claims.crash
  dead name := s.dead name || (s.claims.find? name).any DirClaim.isAcquired

def act (s : Claimants) : CrashAct → Claimants
  | .crash => s.crash
  | .act a => { claims := s.claims.act a, dead := fun name => s.dead name && a.ends? != some name }

def run (s : Claimants) (acts : List CrashAct) : Claimants := acts.foldl act s

def Holds (s : Claimants) (name : String) (p : Path) : Prop := s.dead name = false ∧ s.claims.Owns name p

/-- A dead holder lets go a lock that somebody holds who lives. -/
def Robs (s : Claimants) (a : ClaimAct) (other : String) (p : Path) : Prop :=
  ∃ name, a.lets? = some name ∧ s.dead name = true ∧ s.claims.Owns name p ∧ s.Holds other p

/-- Nobody is robbed in the course of these acts. -/
def Safe (s : Claimants) : List CrashAct → Prop
  | [] => True
  | .crash :: acts => s.crash.Safe acts
  | .act a :: acts => (∀ other p, ¬ s.Robs a other p) ∧ (s.act (.act a)).Safe acts

def living (s : Claimants) : Claims := { s.claims with held := s.claims.held.filter fun x => !s.dead x.1 }

theorem find?_living (s : Claimants) (name : String) :
    s.living.find? name = if s.dead name then none else s.claims.find? name := by
  unfold living Registry.find?
  simp only
  induction s.claims.held with
  | nil => simp
  | cons x held ih =>
    by_cases hx : s.dead x.1 = true
    · rw [List.filter_cons_of_neg (by simp [hx]), ih, Registry.lookup_cons]
      by_cases hn : name = x.1
      · rw [hn, if_pos hx, if_pos hx]
      · rw [if_neg hn]
    · rw [List.filter_cons_of_pos (by simp [hx]), Registry.lookup_cons, Registry.lookup_cons, ih]
      by_cases hn : name = x.1
      · rw [if_pos hn, if_pos hn, hn, if_neg hx]
      · rw [if_neg hn, if_neg hn]

theorem owns_living (s : Claimants) (name : String) (p : Path) : s.living.Owns name p ↔ s.Holds name p := by
  unfold Registry.Owns Holds
  rw [find?_living]
  by_cases hd : s.dead name = true
  · simp [hd]
  · simp only [hd, Bool.false_eq_true, ite_false]
    simp [Registry.Owns]

/-- Who is dead holds a lock or has given its claim up. -/
def Settled (s : Claimants) : Prop :=
  ∀ name c, s.dead name = true → s.claims.find? name = some c → c.isAcquired = true ∨ c.disposed = true

/-! ## Each act -/

theorem find?_lets_living (ha : a.lets? = some name) (other : String) :
    (s.act (.act a)).living.find? other = (s.living.act a).find? other := by
  rw [find?_living]
  cases a with
  | claim nm dir =>
    simp only [act, Registry.act, Registry.find?_claim, find?_living, ClaimAct.ends?]
    by_cases ho : other = nm
    · simp [ho]
    · simp [ho, Ne.symm ho]
  | acquire nm => cases ha
  | dispose nm =>
    simp only [act, Registry.act, Registry.find?_dispose, find?_living, ClaimAct.ends?]
    by_cases ho : other = nm
    · by_cases hd : s.dead nm = true
      · simp [ho, hd]
      · simp [ho, hd]
    · simp [ho]
  | drop nm =>
    simp only [act, Registry.act, Registry.find?_dropClaim, find?_living, ClaimAct.ends?]
    by_cases ho : other = nm
    · simp [ho]
    · simp [ho, Ne.symm ho]

theorem kept_lets (h : s.living.Exclusive) (hn : ∀ other p, ¬ s.Robs a other p) (ha : a.lets? = some name) :
    (s.living.act a).Kept (s.act (.act a)).living := by
  have hden : (s.act (.act a)).living.files.denied = (s.living.act a).files.denied := by
    rw [Registry.denied_lets (r := s.living) ha]
    exact Registry.denied_lets (r := s.claims) ha
  refine ⟨hden, ?_, find?_lets_living ha⟩
  by_cases hd : s.dead name = true
  · -- A dead holder frees nothing: who holds its lock would live, and be robbed.
    have hfree (p : Path) (ho : s.claims.Owns name p) : s.claims.files.files.isLocked p = false := by
      by_cases hl : s.claims.files.files.isLocked p = true
      · obtain ⟨other, hother⟩ := (h.table p).mp hl
        exact absurd ⟨name, ha, hd, ho, (s.owns_living other p).mp hother⟩ (hn other p)
      · simpa using hl
    have hnone (p : Path) (ho : s.living.Owns name p) : s.living.files.files.isLocked p = false := by
      have hl := ((s.owns_living name p).mp ho).1
      exact absurd (hd.symm.trans hl) nofun
    rw [Registry.locks_lets (r := s.living) ha hnone]
    exact Registry.locks_lets (r := s.claims) ha hfree
  · have hfind : s.living.find? name = s.claims.find? name := by rw [find?_living, if_neg hd]
    have hfiles : (s.living.act a).files = (s.claims.act a).files := by
      rw [Registry.files_lets (r := s.living) ha, Registry.files_lets (r := s.claims) ha]
      unfold Registry.dispose
      rw [hfind]
      cases s.claims.find? name <;> rfl
    rw [hfiles]
    rfl

theorem Settled.acquire (hs : s.Settled) (hd : s.claims.files.denied = []) (hn : s.dead name = true) :
    s.claims.Kept (s.claims.acquire name).2 := by
  cases hc : s.claims.find? name with
  | none =>
    unfold Registry.acquire
    rw [hc]
    exact .refl _
  | some c =>
    rcases Registry.acquire_cases hd hc with ⟨_, -, -, -, hk⟩ | ⟨-, hdisposed, ha, -⟩
    · exact hk
    · rcases hs name c hn hc with h | h
      · exact absurd (ha.symm.trans h) nofun
      · exact absurd (hdisposed.symm.trans h) nofun

theorem kept_acquire (h : s.living.Exclusive) (hs : s.Settled) (name : String) :
    (s.living.act (.acquire name)).Kept (s.act (.act (.acquire name))).living := by
  have hdead (other : String) : (s.act (.act (.acquire name))).dead other = s.dead other := by
    simp [act, ClaimAct.ends?]
  by_cases hd : s.dead name = true
  · have hk := hs.acquire h.granted hd
    have hsame : s.living.act (.acquire name) = s.living := by
      simp only [Registry.act, Registry.acquire, find?_living, hd, ite_true]
    rw [hsame]
    refine ⟨hk.denied, hk.locks, ?_⟩
    intro other
    rw [find?_living, find?_living, hdead]
    by_cases ho : s.dead other = true
    · rw [if_pos ho, if_pos ho]
    · rw [if_neg ho, if_neg ho]
      exact hk.find? other
  · have hfind : s.living.find? name = s.claims.find? name := by rw [find?_living, if_neg hd]
    have hfiles : (s.living.acquire name).2.files = (s.claims.acquire name).2.files := by
      rw [Registry.files_acquire, Registry.files_acquire, hfind]
      rfl
    refine ⟨congrArg Storage.denied hfiles.symm, congrArg (·.files.locks) hfiles.symm, ?_⟩
    intro other
    simp only [act, Registry.act]
    rw [find?_living, Registry.find?_acquire, Registry.find?_acquire, hfind, find?_living]
    by_cases ho : other = name
    · simp [ho, hd, ClaimAct.ends?, living]
    · simp [ho, ClaimAct.ends?]

theorem kept_act (h : s.living.Exclusive) (hs : s.Settled) (hn : ∀ other p, ¬ s.Robs a other p) :
    (s.living.act a).Kept (s.act (.act a)).living := by
  cases hl : a.lets? with
  | none =>
    cases a with
    | acquire name => exact kept_acquire h hs name
    | _ => cases hl
  | some name => exact kept_lets h hn hl

/-- Who held a lock is dead now, so none of the living holds one. -/
theorem not_holds_crash (s : Claimants) (name : String) (p : Path) : ¬ s.crash.Holds name p := by
  intro h
  obtain ⟨hdead, c, l, hc, hl, -⟩ := h
  have hc : s.claims.find? name = some c := hc
  simp [crash, hc, DirClaim.isAcquired, hl] at hdead

theorem living_crash (hd : s.claims.files.denied = []) : s.crash.living.Exclusive := by
  have hnone (name : String) (p : Path) : ¬ s.crash.living.Owns name p := by
    rw [owns_living]
    exact s.not_holds_crash name p
  refine ⟨hd, ?_, ?_, ?_⟩
  · intro name c l hc hl
    exact absurd ⟨c, l, hc, hl, l.same_refl⟩ (hnone name l)
  · intro p
    constructor
    · intro hl
      cases hl
    · intro ho
      obtain ⟨name, ho⟩ := ho
      exact absurd ho (hnone name p)
  · intro name other p ho
    exact absurd ho (hnone name p)

/-! ## Runs -/

/-- Nothing is denied, and the dead take no locks. -/
structure Sound (s : Claimants) : Prop where
  granted : s.claims.files.denied = []
  settled : s.Settled

theorem Sound.acquire (h : s.Sound) (name : String) : (s.act (.act (.acquire name))).Sound := by
  have hdead (other : String) : (s.act (.act (.acquire name))).dead other = s.dead other := by
    simp [act, ClaimAct.ends?]
  cases hc : s.claims.find? name with
  | none =>
    have hsame : (s.act (.act (.acquire name))).claims = s.claims := by
      simp only [act, Registry.act, Registry.acquire, hc]
    refine ⟨hsame ▸ h.granted, ?_⟩
    intro other c hd hother
    exact h.settled other c (hdead other ▸ hd) (hsame ▸ hother)
  | some c =>
    rcases Registry.acquire_cases h.granted hc with ⟨_, -, -, -, hk⟩ | ⟨-, hdisposed, ha, -, hdenied, -, hf⟩
    · refine ⟨hk.denied.trans h.granted, ?_⟩
      intro other c hd hother
      exact h.settled other c (hdead other ▸ hd) (hk.find? other ▸ hother)
    · refine ⟨hdenied.trans h.granted, ?_⟩
      intro other c' hd hother
      have hother : (s.claims.acquire name).2.find? other = some c' := hother
      rw [hf] at hother
      by_cases ho : other = name
      · rw [if_pos ho] at hother
        cases hother
        exact Or.inl rfl
      · rw [if_neg ho] at hother
        exact h.settled other c' (hdead other ▸ hd) hother

theorem Sound.act (h : s.Sound) (a : ClaimAct) : (s.act (.act a)).Sound := by
  cases hl : a.lets? with
  | none =>
    cases a with
    | acquire name => exact h.acquire name
    | _ => cases hl
  | some name =>
    refine ⟨(Registry.denied_lets hl).trans h.granted, ?_⟩
    intro other c hd hc
    simp only [Claimants.act, Bool.and_eq_true, bne_iff_ne] at hd hc
    by_cases ho : other = name
    · -- Of the dead, those stay under their names that were disposed of.
      subst ho
      cases a with
      | dispose _ =>
        cases hl
        simp only [Registry.act, Registry.find?_dispose, ite_true] at hc
        obtain ⟨c, -, rfl⟩ := Option.map_eq_some_iff.mp hc
        exact Or.inr rfl
      | acquire _ => cases hl
      | claim _ _ =>
        cases hl
        exact absurd rfl hd.2
      | drop _ =>
        cases hl
        exact absurd rfl hd.2
    · rw [Registry.find?_lets hl ho] at hc
      exact h.settled other c hd.1 hc

theorem Sound.crash (h : s.Sound) : s.crash.Sound := by
  refine ⟨h.granted, ?_⟩
  intro name c hdead hc
  have hc : s.claims.find? name = some c := hc
  simp only [Claimants.crash, hc, Option.any_some, Bool.or_eq_true] at hdead
  rcases hdead with hdead | ha
  · exact h.settled name c hdead hc
  · exact Or.inl ha

theorem Sound.run (h : s.Sound) (acts : List CrashAct) : (s.run acts).Sound := by
  induction acts generalizing s with
  | nil => exact h
  | cons a acts ih =>
    cases a with
    | act a => exact ih (h.act a)
    | crash => exact ih h.crash

theorem Safe.living {acts : List CrashAct} (hs : s.Safe acts) (h : s.Sound) (he : s.living.Exclusive) :
    (s.run acts).living.Exclusive := by
  induction acts generalizing s with
  | nil => exact he
  | cons a acts ih =>
    cases a with
    | act a => exact ih hs.2 (h.act a) ((he.act a).kept (kept_act he h.settled hs.1))
    | crash => exact ih hs h.crash (living_crash h.granted)

/-! ## What the living hold -/

def opened (files : Storage) : Claimants := { claims := ⟨files, []⟩ }

theorem sound_opened {files : Storage} (hd : files.denied = []) : (opened files).Sound := by
  refine ⟨hd, ?_⟩
  intro name c hdead
  cases hdead

theorem living_opened {files : Storage} (hd : files.denied = []) (hl : files.files.locks = []) :
    (opened files).living.Exclusive := Registry.exclusive_of_none hd hl

theorem Holds.act (h : s.Holds other p) (ha : a.lets? = some name) (ho : other ≠ name) :
    (s.act (.act a)).Holds other p := by
  obtain ⟨hd, c, l, hc, hl, hs⟩ := h
  refine ⟨?_, c, l, ?_, hl, hs⟩
  · simp [Claimants.act, hd]
  · exact (Registry.find?_lets ha ho).trans hc

/-- A lock that is free is taken by whoever asks for it, while others go on holding it who have not let it go. -/
theorem Sound.takes (h : s.Sound) (hfree : s.claims.files.files.isLocked p = false) {third : String}
    (hc : s.claims.find? third = some c) (hd : c.disposed = false) (ha : c.isAcquired = false)
    (hs : (lockPath c.dir).same p = true) :
    (s.act (.act (.acquire third))).Holds third p ∧
      ∀ other, s.Holds other p → other ≠ third ∧ (s.act (.act (.acquire third))).Holds other p := by
  have hliving : s.dead third = false := by
    by_cases hdead : s.dead third = true
    · rcases h.settled third c hdead hc with h | h
      · exact absurd (ha.symm.trans h) nofun
      · exact absurd (hd.symm.trans h) nofun
    · simpa using hdead
  have hdead (name : String) (hn : s.dead name = false) : (s.act (.act (.acquire third))).dead name = false := by
    simp [Claimants.act, hn]
  rcases Registry.acquire_cases h.granted hc with ⟨_, -, -, hwhy, -⟩ | ⟨-, -, -, -, -, -, hf⟩
  · rcases hwhy with hd' | ha' | hl
    · exact absurd (hd.symm.trans hd') nofun
    · exact absurd (ha.symm.trans ha') nofun
    · obtain ⟨q, hq, hqs⟩ := MemoryFiles.isLocked_iff.mp hl
      have hlocked := MemoryFiles.isLocked_iff.mpr ⟨q, hq, Path.same_trans hqs hs⟩
      exact absurd (hfree.symm.trans hlocked) nofun
  · refine ⟨⟨hdead third hliving, _, _, (hf third).trans (if_pos rfl), rfl, hs⟩, ?_⟩
    intro other ho
    obtain ⟨hn, c', l, hc', hl, hsl⟩ := ho
    have hne : other ≠ third := by
      intro hothird
      rw [hothird] at hc'
      cases hc.symm.trans hc'
      simp [DirClaim.isAcquired, hl] at ha
    exact ⟨hne, hdead other hn, c', l, ((hf other).trans (if_neg hne)).trans hc', hl, hsl⟩

/-- Who is robbed goes on holding its lock, which is free for somebody else. -/
theorem Robs.frees (hr : s.Robs a other p) :
    (s.act (.act a)).claims.files.files.isLocked p = false ∧ (s.act (.act a)).Holds other p := by
  obtain ⟨name, ha, hd, ho, hother⟩ := hr
  have hne : other ≠ name := by
    intro hn
    have hlives := hother.1
    rw [hn, hd] at hlives
    cases hlives
  refine ⟨?_, hother.act ha hne⟩
  rw [Bool.eq_false_iff]
  intro hl
  exact ((Registry.isLocked_lets ha p).mp hl).2 ho

theorem holds_iff (h : s.living.Exclusive) (name : String) (p : Path) :
    s.Holds name p ↔ ∃ c, s.claims.find? name = some c ∧ s.dead name = false ∧ c.isAcquired = true ∧
      (lockPath c.dir).same p = true := by
  rw [← s.owns_living, h.owns_iff, find?_living]
  by_cases hd : s.dead name = true
  · simp [hd]
  · simp [hd]

/-- After a crash, or from the beginning, as long as no dead holder lets go a lock that somebody holds who lives: a lock
has one living holder at most, and exactly the locks of the living are taken. Once a dead holder does that, the one who
is robbed holds a lock that is free, and whoever asks for it holds it too. -/
theorem living_holder_alone {files : Storage} (hd : files.denied = []) (hl : files.files.locks = [])
    {earlier later : List CrashAct} (he : earlier = [] ∨ ∃ before, earlier = before ++ [.crash])
    (hs : ((opened files).run earlier).Safe later) (hr : (opened files).run (earlier ++ later) = s) :
    (∀ name other c c', s.claims.find? name = some c → s.claims.find? other = some c' → s.dead name = false →
      s.dead other = false → c.isAcquired = true → c'.isAcquired = true →
      (lockPath c.dir).same (lockPath c'.dir) = true → name = other) ∧
    (∀ p, s.claims.files.files.isLocked p = true ↔ ∃ name c, s.claims.find? name = some c ∧ s.dead name = false ∧
      c.isAcquired = true ∧ (lockPath c.dir).same p = true) ∧
    (∀ a other p, s.Robs a other p →
      (s.act (.act a)).claims.files.files.isLocked p = false ∧ (s.act (.act a)).Holds other p ∧
      ∀ third c, (s.act (.act a)).claims.find? third = some c → c.disposed = false → c.isAcquired = false →
        (lockPath c.dir).same p = true →
        other ≠ third ∧ ((s.act (.act a)).act (.act (.acquire third))).Holds third p ∧
          ((s.act (.act a)).act (.act (.acquire third))).Holds other p) := by
  have hbegin : ((opened files).run earlier).living.Exclusive := by
    rcases he with rfl | ⟨before, rfl⟩
    · exact living_opened hd hl
    · rw [run, List.foldl_append, ← run]
      exact living_crash ((sound_opened hd).run before).granted
  have hsound : s.Sound := hr ▸ (sound_opened hd).run (earlier ++ later)
  -- exclusion among the living holds after a crash, whatever was before, and a safe run keeps it
  have hliving : s.living.Exclusive := by
    have h := hs.living ((sound_opened hd).run earlier) hbegin
    rwa [run, run, ← List.foldl_append, ← run, hr] at h
  refine ⟨?_, ?_, ?_⟩
  · intro name other c c' hc hc' hn ho ha ha' hsame
    apply hliving.single name other (lockPath c'.dir)
    · exact (s.owns_living name _).mpr ((holds_iff hliving name _).mpr ⟨c, hc, hn, ha, hsame⟩)
    · exact (s.owns_living other _).mpr ((holds_iff hliving other _).mpr ⟨c', hc', ho, ha', Path.same_refl _⟩)
  · intro p
    have htable := hliving.table p
    simp only [owns_living, holds_iff hliving] at htable
    exact htable
  · intro a other p hrobs
    obtain ⟨hfree, hother⟩ := hrobs.frees
    refine ⟨hfree, hother, ?_⟩
    intro third c hc hdisposed ha hsame
    obtain ⟨hthird, hkept⟩ := (hsound.act a).takes hfree hc hdisposed ha hsame
    obtain ⟨hne, hother⟩ := hkept other hother
    exact ⟨hne, hthird, hother⟩

/-- Of three claims on one directory and one on another, two are taken up before a crash. -/
def survivors : List CrashAct :=
  [.act (.claim "a" ⟨"/cache"⟩), .act (.claim "b" ⟨"//cache"⟩), .act (.claim "c" ⟨"/cache/"⟩),
    .act (.claim "d" ⟨"/other"⟩), .act (.acquire "a"), .act (.acquire "d")] ++ [.crash]

/-- What a dead holder lets go may be free, or may be held by a successor. -/
theorem living_holder_alone_survivors :
    ∃ s, ({} : Storage).denied = [] ∧ ({} : Storage).files.locks = [] ∧ (∃ before, survivors = before ++ [.crash]) ∧
      ((opened {}).run survivors).Safe [.act (.dispose "d"), .act (.acquire "b")] ∧
      (opened {}).run (survivors ++ [.act (.dispose "d"), .act (.acquire "b")]) = s ∧
      s.dead "a" = true ∧ s.claims.files.files.locks = [⟨"/cache.lock"⟩] ∧
      (∀ name c, s.claims.find? name = some c → s.dead name = false → c.isAcquired = true →
        (lockPath c.dir).same ⟨"/cache.lock"⟩ = true → name = "b") ∧
      s.Robs (.dispose "a") "b" ⟨"/cache.lock"⟩ ∧
      ((s.act (.act (.dispose "a"))).act (.act (.acquire "c"))).Holds "b" ⟨"/cache.lock"⟩ ∧
      ((s.act (.act (.dispose "a"))).act (.act (.acquire "c"))).Holds "c" ⟨"/cache.lock"⟩ := by
  have hd : ({} : Storage).denied = [] := rfl
  have hl : ({} : Storage).files.locks = [] := rfl
  have he : ∃ before, survivors = before ++ [.crash] := ⟨_, rfl⟩
  have hs : ((opened {}).run survivors).Safe [.act (.dispose "d"), .act (.acquire "b")] := by
    refine ⟨?_, ?_, trivial⟩
    · intro other p hrobs
      obtain ⟨-, -, -, -, hholds⟩ := hrobs
      exact not_holds_crash _ other p hholds
    · intro other p hrobs
      obtain ⟨_, ha, -⟩ := hrobs
      cases ha
  have hr : (opened {}).run (survivors ++ [.act (.dispose "d"), .act (.acquire "b")]) = _ := rfl
  obtain ⟨hsingle, -, hshared⟩ := living_holder_alone hd hl (Or.inr he) hs hr
  have hb : ((opened {}).run (survivors ++ [.act (.dispose "d"), .act (.acquire "b")])).claims.find? "b" =
      some { dir := ⟨"//cache"⟩, lock := some ⟨"/cache.lock"⟩ } := by rfl
  have ha : ((opened {}).run (survivors ++ [.act (.dispose "d"), .act (.acquire "b")])).claims.find? "a" =
      some { dir := ⟨"/cache"⟩, lock := some ⟨"/cache.lock"⟩ } := by rfl
  have hrobs : ((opened {}).run (survivors ++ [.act (.dispose "d"), .act (.acquire "b")])).Robs (.dispose "a") "b"
      ⟨"/cache.lock"⟩ :=
    ⟨"a", rfl, by rfl, ⟨_, _, ha, rfl, Path.same_refl _⟩, by rfl, _, _, hb, rfl, Path.same_refl _⟩
  obtain ⟨-, -, hthird⟩ := hshared _ _ _ hrobs
  obtain ⟨-, hc, hb'⟩ := hthird "c" { dir := ⟨"/cache/"⟩ } (by rfl) rfl rfl (by decide +kernel)
  refine ⟨_, hd, hl, he, hs, hr, by rfl, by decide +kernel, ?_, hrobs, hb', hc⟩
  intro name c hfind hlives hacq hsame
  exact hsingle name "b" c _ hfind hb hlives (by rfl) hacq rfl hsame

/-- A dead holder frees the lock of its successor, and so there are two who live and hold it. -/
theorem dead_holder_frees :
    let s := (opened {}).run (survivors ++ [.act (.acquire "b")])
    let s' := s.act (.act (.dispose "a"))
    let s'' := s'.act (.act (.acquire "c"))
    s.claims.files.files.locks = [⟨"/cache.lock"⟩] ∧ s'.claims.files.files.locks = [] ∧
      s''.dead "a" = true ∧ s''.dead "b" = false ∧ s''.dead "c" = false ∧
      (s''.claims.find? "b").map DirClaim.isAcquired = some true ∧
      (s''.claims.find? "c").map DirClaim.isAcquired = some true ∧
      (lockPath ⟨"//cache"⟩).same (lockPath ⟨"/cache/"⟩) = true := by
  decide +kernel

end Claimants
end Courier

import Courier.Proofs.Recover
import Courier.Proofs.Wire

/-!
# At most once

Envelopes that bear a mark are counted wherever they are: among the accepted ones, in the hands of workers, in
files, and where they have arrived. Where one was accepted at most, a file that bears the mark means that nothing
with it has arrived and that nobody has it but in that file.
-/

namespace Courier

/-! ## Counting in lists of lists -/

theorem countP_flatMap_set {α β : Type} (f : α → List β) (c : β → Bool) (b : α) :
    ∀ {xs : List α} {i : Nat} {a : α}, xs[i]? = some a →
      ((xs.set i b).flatMap f).countP c + (f a).countP c = (xs.flatMap f).countP c + (f b).countP c
  | x :: xs, 0, a, h => by
    cases h
    simp only [List.set_cons_zero, List.flatMap_cons, List.countP_append]
    omega
  | x :: xs, i + 1, a, h => by
    have ih := countP_flatMap_set f c b (i := i) (by simpa using h)
    simp only [List.set_cons_succ, List.flatMap_cons, List.countP_append]
    omega

theorem eq_of_countP_le_one {α : Type} {c : α → Bool} {xs : List α} (h : xs.countP c ≤ 1) {a b : α} (ha : a ∈ xs)
    (hb : b ∈ xs) (hca : c a = true) (hcb : c b = true) : a = b := by
  have hl : (xs.filter c).length ≤ 1 := by rwa [← List.countP_eq_length_filter]
  have ha' := List.mem_filter.mpr ⟨ha, hca⟩
  have hb' := List.mem_filter.mpr ⟨hb, hcb⟩
  generalize xs.filter c = ys at hl ha' hb'
  match ys with
  | [y] => rw [List.mem_singleton.mp ha', List.mem_singleton.mp hb']

theorem countP_le_one_of_pairwise {α : Type} {c : α → Bool} {R : α → α → Prop} {xs : List α} (h : xs.Pairwise R)
    (hc : ∀ a b, R a b → c a = true → c b = true → False) : xs.countP c ≤ 1 := by
  induction xs with
  | nil => simp
  | cons x xs ih =>
    obtain ⟨hx, hr⟩ := List.pairwise_cons.mp h
    rw [List.countP_cons]
    split
    · next hm =>
      have hz := List.countP_eq_zero.mpr fun y hy hcy => hc x y (hx y hy) hm hcy
      omega
    · exact Nat.le_trans (by omega) (ih hr)

/-! ## Marks -/

/-- A mark is still there when an envelope is read back, and is not on what is made for a report. -/
structure Mark (m : Envelope → Bool) : Prop where
  echo : ∀ {e f : Envelope}, e.Echo f → m f = m e
  blank : m {} = false

def Envelope.tag? (e : Envelope) (key : String) : Option UInt64 := (e.header.get? key).bind Json.natural?

theorem mark_tag (key : String) (t : UInt64) : Mark fun e => e.tag? key == some t where
  echo h := by simp only [Envelope.tag?, (h.header key).2]
  blank := rfl

/-- This file holds an envelope with the mark. -/
def Storage.Bears (fs : Storage) (m : Envelope → Bool) (file : Path) : Prop :=
  ∃ data e, (file, data) ∈ fs.files.files ∧ Envelope.ofBytes data = .ok e ∧ m e = true

namespace Storage

variable {fs fs' : Storage} {m : Envelope → Bool} {f g : Path} {e : Envelope}

theorem Bears.mono (hb : fs'.Bears m f) (h : ∀ x ∈ fs'.files.files, x ∈ fs.files.files) : fs.Bears m f := by
  obtain ⟨data, e, hx, he, hm⟩ := hb
  exact ⟨data, e, h _ hx, he, hm⟩

theorem Bears.without (hb : (fs.without g).Bears m f) : fs.Bears m f ∧ f.same g = false := by
  obtain ⟨data, e, hx, he, hm⟩ := hb
  obtain ⟨hx, hn⟩ := mem_without.mp hx
  exact ⟨⟨data, e, hx, he, hm⟩, hn⟩

theorem Bears.holding (hb : (fs.holding g e.toBytes).Bears m f) (hm : Mark m) (hf : fs.Fit) (he : e.Sized) :
    (f.same g = true ∧ m e = true) ∨ fs.Bears m f := by
  obtain ⟨data, e', hx, he', hm'⟩ := hb
  rcases MemoryFiles.mem_insert hf.sorted hx with ⟨hs, rfl⟩ | ⟨-, hx⟩
  · exact .inl ⟨hs, by rw [← hm.echo (Envelope.ofBytes_toBytes_echo he he'), hm']⟩
  · exact .inr ⟨data, e', hx, he', hm'⟩

theorem Bears.put {h h' : Handling} {now : Timestamp} {r : Spilled} (hp : h.Put fs now e r h' fs')
    (hb : fs'.Bears m f) (hm : Mark m) (hf : fs.Fit) (he : e.Sized) :
    (∃ g, r = .written g ∧ f.same g = true ∧ m e = true) ∨ fs.Bears m f := by
  cases hp with
  | refused => exact .inr hb
  | wasted => exact .inr hb
  | written => exact (hb.holding hm hf he).imp_left fun ⟨hs, hme⟩ => ⟨_, rfl, hs, hme⟩

end Storage

theorem Worker.Found.bears {w : Worker} {fs fs' : Storage} {found : List (Envelope × Path)} {m : Envelope → Bool}
    (hw : w.Found fs fs' found) {b : Envelope × Path} (hb : b ∈ found) (hme : m b.1 = true) : fs.Bears m b.2 := by
  obtain ⟨data, hx, he⟩ := hw.files b hb
  exact ⟨data, b.1, hx, he, hme⟩

/-! ## All parcels -/

namespace Office

def parcels (s : Office) : List Parcel := s.desks.flatMap (·.worker.parcels)

def accepted (s : Office) : List Envelope := s.desks.flatMap (·.accepted)

def arrived (s : Office) : List (Parcel × Outbound) := s.desks.flatMap (·.arrived)

/-- What is not in a file is as somebody has offered it. -/
structure Shelved (s : Office) (dir : Path) : Prop where
  locked : s.Locked dir
  fit : s.depot.storage.Fit
  sized : ∀ p ∈ s.parcels, p.file = none → p.envelope.Sized

/-- Of the envelopes with this mark one was accepted at most, and it is in one place. -/
structure Unique (s : Office) (m : Envelope → Bool) : Prop where
  one : s.accepted.countP m ≤ 1
  few : s.arrived.countP (m ·.1.envelope) + s.parcels.countP (m ·.envelope) ≤ s.accepted.countP m
  filed : ∀ f, s.depot.storage.Bears m f → s.accepted.countP m = 1 ∧ s.arrived.countP (m ·.1.envelope) = 0 ∧
    ∀ p ∈ s.parcels, m p.envelope = true → ∃ g, p.file = some g ∧ g.same f = true
  single : ∀ f g, s.depot.storage.Bears m f → s.depot.storage.Bears m g → f.same g = true

variable {s t : Office} {m : Envelope → Bool}

/-- An office where nothing with the mark came to more, and where no file came to bear it. -/
theorem Unique.mono (hu : s.Unique m) (ha : t.accepted.countP m = s.accepted.countP m)
    (hn : t.arrived.countP (m ·.1.envelope) + t.parcels.countP (m ·.envelope) ≤
      s.arrived.countP (m ·.1.envelope) + s.parcels.countP (m ·.envelope))
    (hf : ∀ f, t.depot.storage.Bears m f → s.depot.storage.Bears m f ∧
      t.arrived.countP (m ·.1.envelope) = s.arrived.countP (m ·.1.envelope))
    (hp : ∀ p ∈ t.parcels, m p.envelope = true → p ∈ s.parcels) : t.Unique m where
  one := by rw [ha]; exact hu.one
  few := by rw [ha]; exact Nat.le_trans hn hu.few
  filed f h := by
    obtain ⟨hb, hc⟩ := hf f h
    obtain ⟨h₁, h₂, h₃⟩ := hu.filed f hb
    exact ⟨ha.trans h₁, hc.trans h₂, fun p hm hme => h₃ p (hp p hm hme) hme⟩
  single f g hf' hg := hu.single f g (hf f hf').1 (hf g hg).1

theorem Unique.same (hu : s.Unique m) (hd : t.desks = s.desks)
    (hf : t.depot.storage.files.files = s.depot.storage.files.files) : t.Unique m := by
  have hp : t.parcels = s.parcels := by rw [parcels, parcels, hd]
  have ha : t.accepted = s.accepted := by rw [accepted, accepted, hd]
  have hv : t.arrived = s.arrived := by rw [arrived, arrived, hd]
  exact hu.mono (by rw [ha]) (by simp [hv, hp]) (fun f hb => ⟨hb.mono fun x hx => hf ▸ hx, by rw [hv]⟩)
    fun p hm _ => hp ▸ hm

/-- An office where a parcel that was in no file got one, the only one with the mark. -/
theorem Unique.anew (hu : s.Unique m) {p : Parcel} {g : Path} (hp : p ∈ s.parcels) (hm : m p.envelope = true)
    (ha : t.accepted.countP m = s.accepted.countP m)
    (hv : t.arrived.countP (m ·.1.envelope) = s.arrived.countP (m ·.1.envelope))
    (hn : t.parcels.countP (m ·.envelope) ≤ s.parcels.countP (m ·.envelope))
    (hf : ∀ f, t.depot.storage.Bears m f → f.same g = true)
    (hg : ∀ q ∈ t.parcels, m q.envelope = true → q.file = some g) : t.Unique m := by
  have hpos : 1 ≤ s.parcels.countP (m ·.envelope) := List.countP_pos_iff.mpr ⟨p, hp, hm⟩
  have hone := hu.one
  have hfew := hu.few
  refine ⟨by omega, by omega, fun f hb => ⟨by omega, by omega, fun q hq hmq => ⟨g, hg q hq hmq, ?_⟩⟩,
    fun f f' hb hb' => ?_⟩
  · exact Path.same_symm (hf f hb)
  · exact Path.same_trans (hf f hb) (Path.same_symm (hf f' hb'))

theorem Unique.unborne (hu : s.Unique m) {p : Parcel} (hp : p ∈ s.parcels) (hme : m p.envelope = true)
    (hn : p.file = none) (f : Path) : ¬ s.depot.storage.Bears m f := by
  intro hf
  obtain ⟨g, hg, -⟩ := (hu.filed f hf).2.2 p hp hme
  exact absurd (hn.symm.trans hg) nofun

/-! ## At one desk -/

theorem mem_parcels {i : Nat} {k : Desk} (hk : s.desks[i]? = some k) {p : Parcel} (hp : p ∈ k.worker.parcels) :
    p ∈ s.parcels :=
  List.mem_flatMap.mpr ⟨k, List.mem_of_getElem? hk, hp⟩

theorem mem_parcels_set {i : Nat} {k' : Desk} (ht : t.desks = s.desks.set i k') {p : Parcel} (hp : p ∈ t.parcels) :
    p ∈ k'.worker.parcels ∨ p ∈ s.parcels := by
  obtain ⟨k, hk, hp⟩ := List.mem_flatMap.mp hp
  rw [ht] at hk
  rcases List.mem_or_eq_of_mem_set hk with hk | rfl
  · exact .inr (List.mem_flatMap.mpr ⟨k, hk, hp⟩)
  · exact .inl hp

/-- What changes at one desk changes the counts of the office by as much. -/
structure Counts (s t : Office) (m : Envelope → Bool) (k k' : Desk) : Prop where
  parcels : t.parcels.countP (m ·.envelope) + k.worker.parcels.countP (m ·.envelope) =
    s.parcels.countP (m ·.envelope) + k'.worker.parcels.countP (m ·.envelope)
  accepted : t.accepted.countP m + k.accepted.countP m = s.accepted.countP m + k'.accepted.countP m
  arrived : t.arrived.countP (m ·.1.envelope) + k.arrived.countP (m ·.1.envelope) =
    s.arrived.countP (m ·.1.envelope) + k'.arrived.countP (m ·.1.envelope)

theorem counts_set {i : Nat} {k k' : Desk} (hk : s.desks[i]? = some k) (ht : t.desks = s.desks.set i k')
    (m : Envelope → Bool) : Counts s t m k k' where
  parcels := by rw [Office.parcels, ht]; exact countP_flatMap_set _ _ k' hk
  accepted := by rw [Office.accepted, ht]; exact countP_flatMap_set _ _ k' hk
  arrived := by rw [Office.arrived, ht]; exact countP_flatMap_set _ _ k' hk

section
variable {i : Nat} {k k' : Desk} {p : Parcel} {rest : List Parcel} {r : Spilled} {h' : Handling} {dir : Path}
variable (hu : s.Unique m) (hk : s.desks[i]? = some k) (ht : t.desks = s.desks.set i k')
include hu hk ht

theorem Unique.only_put {p' : Parcel} (hp : k.worker.parcels = p :: rest) (he : p'.envelope = p.envelope)
    (hme : m p.envelope = true) (hp' : k'.worker.parcels = rest ∨ k'.worker.parcels = p' :: rest) :
    ∀ q ∈ t.parcels, m q.envelope = true → q = p' := by
  intro q hq hmq
  have hcs := (counts_set hk ht m).parcels
  have hone := hu.one
  have hfew := hu.few
  rcases hp' with hp' | hp'
  · -- the only one with the mark is gone
    rw [hp, hp'] at hcs
    simp only [List.countP_cons, hme, ite_true] at hcs
    have hpos : 1 ≤ t.parcels.countP (m ·.envelope) := List.countP_pos_iff.mpr ⟨q, hq, hmq⟩
    omega
  · have hme' : m p'.envelope = true := he ▸ hme
    rw [hp, hp'] at hcs
    simp only [List.countP_cons, hme, hme', ite_true] at hcs
    have hk' : t.desks[i]? = some k' := by
      rw [ht, List.getElem?_set_self (List.getElem?_eq_some_iff.mp hk).1]
    have hin := mem_parcels hk' (p := p') (by rw [hp']; exact List.mem_cons_self)
    exact eq_of_countP_le_one (c := (m ·.envelope)) (by omega) hq hin hmq hme'

/-- A parcel that is not in a file is put into one, or is given away and put into one. -/
theorem Unique.put (hm : Mark m) (hs : s.Shelved dir) (hp : k.worker.parcels = p :: rest) (hn : p.file = none)
    (hr : k.worker.handling.Put s.depot.storage s.depot.clock.now p.envelope r h' t.depot.storage)
    (ha : k'.accepted = k.accepted) (hv : k'.arrived = k.arrived)
    (hp' : k'.worker.parcels = rest ∨ k'.worker.parcels = { p with file := r.file? } :: rest) : t.Unique m := by
  have hc := counts_set hk ht m
  have has : t.accepted.countP m = s.accepted.countP m := by have := hc.accepted; rw [ha] at this; omega
  have hvs : t.arrived.countP (m ·.1.envelope) = s.arrived.countP (m ·.1.envelope) := by
    have := hc.arrived; rw [hv] at this; omega
  have hps : t.parcels.countP (m ·.envelope) ≤ s.parcels.countP (m ·.envelope) := by
    have := hc.parcels
    rcases hp' with hp' | hp' <;> rw [hp, hp'] at this <;> simp only [List.countP_cons] at this <;> omega
  have hmem : p ∈ s.parcels := mem_parcels hk (by simp [hp])
  have hb : ∀ f, t.depot.storage.Bears m f →
      (∃ g, r = .written g ∧ f.same g = true ∧ m p.envelope = true) ∨ s.depot.storage.Bears m f :=
    fun f hf => hf.put hr hm hs.fit (hs.sized p hmem hn)
  by_cases hw : ∃ g, r = .written g ∧ m p.envelope = true
  · -- no file bears the mark yet, or the parcel would be in it
    obtain ⟨g, rfl, hme⟩ := hw
    refine hu.anew hmem hme has hvs hps (g := g) (fun f hf => ?_) fun q hq hmq => ?_
    · rcases hb f hf with ⟨g', he, hsame, -⟩ | hf
      · cases he
        exact hsame
      · exact absurd hf (hu.unborne hmem hme hn f)
    · have he : ({ p with file := some g } : Parcel).envelope = p.envelope := rfl
      rw [hu.only_put hk ht hp he hme hp' q hq hmq]
  · refine hu.mono has (by omega) (fun f hf => ⟨(hb f hf).resolve_left ?_, hvs⟩) fun q hq hmq => ?_
    · rintro ⟨g, hg, -, hme⟩
      exact hw ⟨g, hg, hme⟩
    · rcases mem_parcels_set ht hq with hq | hq
      · rcases hp' with hp' | hp'
        · exact mem_parcels hk (by rw [hp, ← hp']; exact List.mem_cons_of_mem _ hq)
        · rcases List.mem_cons.mp (hp' ▸ hq) with rfl | hq
          · cases hg : r.file? with
            | none =>
              rw [show ({ p with file := none } : Parcel) = p by rw [← hn]]
              exact hmem
            | some g => exact absurd ⟨g, Spilled.eq_written hg, hmq⟩ hw
          · exact mem_parcels hk (by rw [hp]; exact List.mem_cons_of_mem _ hq)
      · exact hq

theorem Unique.leave (hp : k.worker.parcels = p :: rest) (hp' : k'.worker.parcels = rest)
    (ha : k'.accepted = k.accepted) (hf : ∀ f, t.depot.storage.Bears m f → s.depot.storage.Bears m f)
    (hv : k'.arrived = k.arrived ∨ (∃ out, k'.arrived = k.arrived ++ [(p, out)]) ∧
      ∀ f g, t.depot.storage.Bears m f → p.file = some g → g.same f = false) : t.Unique m := by
  have hc := counts_set hk ht m
  have has : t.accepted.countP m = s.accepted.countP m := by have := hc.accepted; rw [ha] at this; omega
  have hps := hc.parcels
  have hvs := hc.arrived
  rw [hp, hp', List.countP_cons] at hps
  have hmem : p ∈ s.parcels := mem_parcels hk (by simp [hp])
  have hsub : ∀ q ∈ t.parcels, q ∈ s.parcels := fun q hq =>
    (mem_parcels_set ht hq).elim (fun hq => mem_parcels hk (by rw [hp, ← hp']; exact List.mem_cons_of_mem _ hq)) id
  rcases hv with hv | ⟨⟨out, hv⟩, hgone⟩
  · rw [hv] at hvs
    exact hu.mono has (by omega) (fun f hb => ⟨hf f hb, by omega⟩) fun q hq _ => hsub q hq
  · rw [hv, List.countP_append, List.countP_singleton] at hvs
    simp only at hvs
    refine hu.mono has (by omega) (fun f hb => ⟨hf f hb, ?_⟩) fun q hq _ => hsub q hq
    have hno : ¬ m p.envelope = true := by
      intro hme
      obtain ⟨g, hg, hsame⟩ := (hu.filed f (hf f hb)).2.2 p hmem hme
      rw [hgone f g hb hg] at hsame
      cases hsame
    rw [if_neg hno] at hvs
    omega

theorem Unique.idle (hm : Mark m)
    (hp : k'.worker.parcels = k.worker.parcels ∨ k'.worker.parcels = k.worker.parcels ++ [⟨{}, none, false⟩])
    (ha : k'.accepted = k.accepted) (hv : k'.arrived = k.arrived)
    (hf : t.depot.storage.files.files = s.depot.storage.files.files) : t.Unique m := by
  have hc := counts_set hk ht m
  have hps := hc.parcels
  have has := hc.accepted
  have hvs := hc.arrived
  rw [ha] at has
  rw [hv] at hvs
  have hps' : t.parcels.countP (m ·.envelope) = s.parcels.countP (m ·.envelope) := by
    rcases hp with hp | hp <;> rw [hp] at hps
    · omega
    · rw [List.countP_append, List.countP_singleton, hm.blank] at hps
      simpa using hps
  refine hu.mono (by omega) (by omega) (fun f hb => ⟨hb.mono fun x hx => hf ▸ hx, by omega⟩) fun q hq hmq => ?_
  rcases mem_parcels_set ht hq with hq | hq
  · rcases hp with hp | hp <;> rw [hp] at hq
    · exact mem_parcels hk hq
    · rcases List.mem_append.mp hq with hq | hq
      · exact mem_parcels hk hq
      · rw [List.mem_singleton.mp hq, hm.blank] at hmq
        cases hmq
  · exact hq

theorem Unique.accept {e : Envelope} (hp : k'.worker.parcels = k.worker.parcels ++ [⟨e, none, true⟩])
    (ha : k'.accepted = k.accepted ++ [e]) (hv : k'.arrived = k.arrived)
    (hd : t.depot.storage = s.depot.storage) (hnew : m e = true → s.accepted.countP m = 0) : t.Unique m := by
  have hc := counts_set hk ht m
  have hps := hc.parcels
  have has := hc.accepted
  have hvs := hc.arrived
  have hone := hu.one
  have hfew := hu.few
  rw [hv] at hvs
  rw [ha, List.countP_append, List.countP_singleton] at has
  rw [hp, List.countP_append, List.countP_singleton] at hps
  cases hme : m e with
  | false =>
    simp only [hme, Bool.false_eq_true, ite_false] at has hps
    refine hu.mono (by omega) (by omega) (fun f hb => ⟨hd ▸ hb, by omega⟩) fun q hq hmq => ?_
    rcases mem_parcels_set ht hq with hq | hq
    · rcases List.mem_append.mp (hp ▸ hq) with hq | hq
      · exact mem_parcels hk hq
      · rw [List.mem_singleton.mp hq, hme] at hmq
        cases hmq
    · exact hq
  | true =>
    have hz := hnew hme
    have hnone : ∀ f, ¬ t.depot.storage.Bears m f := by
      intro f hb
      have := (hu.filed f (hd ▸ hb)).1
      omega
    simp only [hme, ite_true] at has hps
    exact ⟨by omega, by omega, fun f hb => absurd hb (hnone f), fun f g hb => absurd hb (hnone f)⟩

theorem Unique.shift (hm : Mark m) (hs : s.Shelved dir) (hsh : k.Shift s.depot k' t.depot)
    (hnew : ∀ e, k'.accepted = k.accepted ++ [e] → m e = true → s.accepted.countP m = 0) : t.Unique m := by
  cases hsh with
  | @work x hx hw hd hset ha hr =>
    -- nothing arrives but by a delivery
    have hstay : (∀ p, x.settled ≠ some (p, .delivered)) → k'.arrived = k.arrived :=
      fun hn => hr.resolve_right fun ⟨p, _, hp, _⟩ => hn p hp
    cases hx with
    | stay hsn hp hh hf =>
      exact hu.idle hk ht hm (.inl (by rw [hw, hp])) ha (hstay (by simp [hsn])) (by rw [hd, hf])
    | file hp hn hput hsn hp' =>
      exact hu.put hk ht hm hs hp hn (hd ▸ hput) ha (hstay (by simp [hsn])) (.inr (by rw [hw, hp']))
    | @drop p rest f hp hf hsn hp' hh hst =>
      have hb : ∀ f, t.depot.storage.Bears m f →
          s.depot.storage.Bears m f ∧ ∀ g, p.file = some g → f.same g = false := by
        intro f hb
        rw [hd, hst] at hb
        cases hg : p.file with
        | none => exact ⟨by rwa [hg] at hb, nofun⟩
        | some g =>
          rw [hg, Storage.remove_some hs.fit.allowed] at hb
          exact ⟨hb.without.1, fun g' he => by cases he; exact hb.without.2⟩
      refine hu.leave hk ht hp (by rw [hw, hp']) ha (fun f h => (hb f h).1) (hr.imp_right ?_)
      rintro ⟨q, out, hq, hv⟩
      rw [hsn] at hq
      cases hq
      exact ⟨⟨out, hv⟩, fun f g h hg => (Path.same_comm g f).trans ((hb f h).2 g hg)⟩
    | keep hp hg hsn hp' hh hst =>
      exact hu.leave hk ht hp (by rw [hw, hp']) ha (fun f hb => by rwa [hd, hst] at hb)
        (.inl (hstay (by simp [hsn])))
    | @forsake p rest r hp hn hput hsn hp' =>
      refine hu.put hk ht hm hs hp hn (hd ▸ hput) ha (hstay fun q hq => ?_) (.inl (by rw [hw, hp']))
      rw [hsn] at hq
      cases r <;> cases hq
    | lose hp ho hsn hp' hh hst =>
      exact hu.leave hk ht hp (by rw [hw, hp']) ha (fun f hb => by rwa [hd, hst] at hb)
        (.inl (hstay (by simp [hsn])))
    | @stop sp retry hp ho hsn hp' hq hh hst =>
      refine hu.idle hk ht hm (.inl (by rw [hw, hp', hp])) ha (hstay (by simp [hsn])) ?_
      rw [hd, hst]
      exact (Storage.dispose_files sp.claim s.depot.storage).1
  | rest hp hh hd hset ha hr => exact hu.idle hk ht hm hp ha hr (by rw [hd])
  | accept hp he hh hd hset ha hr => exact hu.accept hk ht hp ha hr hd (hnew _ ha)

end

theorem Shelved.shift {dir : String} {i : Nat} {a : Act} {k k' : Desk} (hs : s.Shelved ⟨dir⟩)
    (h : s.after? (.desk i a) = some t) (hk : s.desks[i]? = some k) (ht : t.desks = s.desks.set i k')
    (hsh : k.Shift s.depot k' t.depot) (hnew : ∀ e, k'.accepted = k.accepted ++ [e] → e.Sized) : t.Shelved ⟨dir⟩ := by
  refine ⟨hs.locked.desk h, hsh.fit hs.fit, fun p hp hn => ?_⟩
  rcases mem_parcels_set ht hp with hp | hp
  · rcases hsh.mem_parcels hp hn with hp | he | he
    · exact hs.sized p (mem_parcels hk hp) hn
    · rw [he]
      exact ⟨List.Pairwise.nil, by simp⟩
    · exact hnew _ he
  · exact hs.sized p hp hn

/-! ## Starts -/

/-- A worker that finds envelopes is the only one that has any in files. -/
theorem Locked.no_files {dir : Path} (hl : s.Locked dir)
    (hn : s.depot.storage.files.isLocked (DirClaim.lockPath dir) = false) : ∀ p ∈ s.parcels, p.file = none := by
  intro p hp
  obtain ⟨k, hk, hp⟩ := List.mem_flatMap.mp hp
  cases hf : p.file with
  | none => rfl
  | some g =>
    have ho := hl.held k hk ((hl.housed k hk).files p hp (by rw [hf]; rfl))
    rw [hn] at ho
    cases ho

theorem Unique.found_once {w : Worker} {fs' : Storage} {found : List (Envelope × Path)} (hu : s.Unique m)
    (hw : w.Found s.depot.storage fs' found) : found.countP (m ·.1) ≤ 1 := by
  refine countP_le_one_of_pairwise (List.Pairwise.and_mem.mp hw.order) fun a b hr hma hmb => ?_
  obtain ⟨ha, hb, hab⟩ := hr
  have hsame := hu.single a.2 b.2 (hw.bears ha hma) (hw.bears hb hmb)
  rw [Path.not_same_of_before hab] at hsame
  cases hsame

theorem Unique.open {dir : Path} {w : Worker} {fs' : Storage} {found : List (Envelope × Path)} (hu : s.Unique m)
    (hs : s.Shelved dir) (hw : w.Found s.depot.storage fs' found)
    (hl : w.owns = true → s.depot.storage.files.isLocked (DirClaim.lockPath dir) = false)
    (ht : t = { s with depot := { s.depot with storage := fs' }, desks := s.desks ++ [.opened w] }) : t.Unique m := by
  have hps : t.parcels = s.parcels ++ w.parcels := by simp [ht, Office.parcels, Desk.opened]
  have has : t.accepted = s.accepted := by simp [ht, Office.accepted, Desk.opened]
  have hvs : t.arrived = s.arrived := by simp [ht, Office.arrived, Desk.arrived, Desk.opened]
  have hb : ∀ f, t.depot.storage.Bears m f → s.depot.storage.Bears m f := by
    rw [ht]
    exact fun f hb => hb.mono hw.subset
  have hcount : w.parcels.countP (m ·.envelope) = found.countP (m ·.1) := by
    rw [hw.parcels, List.countP_map]
    rfl
  by_cases hex : ∃ b ∈ found, m b.1 = true
  · -- the file that is found bears the mark, so that none of the parcels at work does
    obtain ⟨b, hbm, hme⟩ := hex
    have hnof := hs.locked.no_files (hl (hw.owns (List.ne_nil_of_mem hbm)))
    have hbears := hw.bears hbm hme
    obtain ⟨h₁, h₂, -⟩ := hu.filed b.2 hbears
    have hz : s.parcels.countP (m ·.envelope) = 0 :=
      List.countP_eq_zero.mpr fun p hp hmp => hu.unborne hp hmp (hnof p hp) b.2 hbears
    have hone := hu.found_once hw
    refine ⟨by rw [has]; exact hu.one, ?_, fun f hf => ⟨by rw [has, h₁], by rw [hvs, h₂], fun p hp hmp => ?_⟩,
      fun f g hf hg => hu.single f g (hb f hf) (hb g hg)⟩
    · rw [has, hvs, hps, List.countP_append, hcount]
      omega
    · rcases List.mem_append.mp (hps ▸ hp) with hp | hp
      · exact absurd hmp (List.countP_eq_zero.mp hz p hp)
      · rw [hw.parcels] at hp
        obtain ⟨c, hc, rfl⟩ := List.mem_map.mp hp
        exact ⟨c.2, rfl, hu.single c.2 f (hw.bears hc hmp) (hb f hf)⟩
  · have hz : found.countP (m ·.1) = 0 := List.countP_eq_zero.mpr fun b hb hme => hex ⟨b, hb, hme⟩
    refine hu.mono (by rw [has]) ?_ (fun f hf => ⟨hb f hf, by rw [hvs]⟩) fun p hp hmp => ?_
    · rw [hvs, hps, List.countP_append, hcount, hz]
      omega
    · rcases List.mem_append.mp (hps ▸ hp) with hp | hp
      · exact hp
      · rw [hw.parcels] at hp
        obtain ⟨c, hc, rfl⟩ := List.mem_map.mp hp
        exact absurd ⟨c, hc, hmp⟩ hex

theorem Shelved.open {dir : Path} {w : Worker} {fs' : Storage} {found : List (Envelope × Path)} (hs : s.Shelved dir)
    (hw : w.Found s.depot.storage fs' found)
    (ht : t = { s with depot := { s.depot with storage := fs' }, desks := s.desks ++ [.opened w] })
    (hl : t.Locked dir) : t.Shelved dir := by
  refine ⟨hl, by rw [ht]; exact hw.fit, fun p hp hn => ?_⟩
  have hps : t.parcels = s.parcels ++ w.parcels := by simp [ht, Office.parcels, Desk.opened]
  rcases List.mem_append.mp (hps ▸ hp) with hp | hp
  · exact hs.sized p hp hn
  · rw [hw.parcels] at hp
    obtain ⟨c, -, rfl⟩ := List.mem_map.mp hp
    cases hn

end Office

end Courier

import Courier.Proofs.Places

/-!
# Journals

A journal tells all that happened at a desk, first come first, with what the depot was like at each act. Who follows it
from the first state comes by every state in between, so a journal says of each look when it was and what it found.
-/

namespace Courier

/-- What happened at a desk. -/
inductive Entry
  /-- An act, and the depot that it found. -/
  | act (a : Act) (d : Depot)
  | handled (f : Fate)
  | forsaken (f : Fate)

namespace Desk

variable {k₀ k k' : Desk} {n : Nat} {log more : List Entry} {x : Entry}

def enter? (k : Desk) : Entry → Option Desk
  | .act a d => (k.act? d a).map Prod.fst
  | .handled f => k.worker.hand?.map fun p =>
    { k with worker := k.worker.finish p, settled := k.settled ++ [(p, f)] }
  | .forsaken f =>
    match k.worker.position, k.worker.queue with
    | .closing, p :: rest =>
      some { k with worker := { k.worker with queue := rest }.release p, settled := k.settled ++ [(p, f)] }
    | _, _ => none

def follow? (k : Desk) (log : List Entry) : Option Desk := log.foldlM enter? k

@[simp] theorem follow?_nil (k : Desk) : k.follow? [] = some k := rfl

theorem follow?_cons (k : Desk) (x : Entry) (log : List Entry) :
    k.follow? (x :: log) = (k.enter? x).bind fun u => u.follow? log := by
  simp [follow?]

theorem follow?_append (k : Desk) (log more : List Entry) :
    k.follow? (log ++ more) = (k.follow? log).bind fun u => u.follow? more := by
  simp [follow?]

theorem follow?_snoc (h : k₀.follow? log = some k) (x : Entry) : k₀.follow? (log ++ [x]) = k.enter? x := by
  rw [follow?_append, h, Option.bind_some, follow?_cons]
  cases k.enter? x <;> rfl

theorem enter?_next (h : k.enter? x = some k') : k.Next k' := by
  cases x with
  | act a d =>
    obtain ⟨⟨u, d'⟩, ha, rfl⟩ := Option.map_eq_some_iff.mp h
    exact .act a ha
  | handled f =>
    obtain ⟨p, hp, rfl⟩ := Option.map_eq_some_iff.mp h
    exact .handled f hp
  | forsaken f =>
    simp only [enter?] at h
    split at h
    · next hp hq =>
      cases h
      exact .forsaken f hp hq
    · cases h

theorem Next.enter? (h : k.Next k') : ∃ x, k.enter? x = some k' := by
  cases h with
  | @act k' d d' a ha => exact ⟨.act a d, by rw [Desk.enter?, ha]; rfl⟩
  | handled f hp => exact ⟨.handled f, by rw [Desk.enter?, hp]; rfl⟩
  | forsaken f hp hq => exact ⟨.forsaken f, by rw [Desk.enter?, hp, hq]⟩

theorem follow?_course (h : k₀.follow? log = some k) : k₀.Course k := by
  induction log generalizing k₀ with
  | nil =>
    cases h
    exact .refl
  | cons x log ih =>
    rw [follow?_cons] at h
    obtain ⟨u, hu, h⟩ := Option.bind_eq_some_iff.mp h
    exact (Course.refl.next (enter?_next hu)).trans (ih h)

/-- What comes about can be written down. -/
theorem Course.follow? (h : k₀.Course k) : ∃ log, k₀.follow? log = some k := by
  induction h with
  | refl => exact ⟨[], rfl⟩
  | next _ hn ih =>
    obtain ⟨log, hl⟩ := ih
    obtain ⟨x, hx⟩ := hn.enter?
    exact ⟨log ++ [x], (follow?_snoc hl x).trans hx⟩

/-- The journal of these acts, where the depot is left alone in between. -/
def journal (k : Desk) (d : Depot) : List Act → List Entry
  | [] => []
  | a :: as =>
    .act a d :: match k.act? d a with
      | some (k', d') => k'.journal d' as
      | none => []

theorem follow?_journal {as : List Act} {k k' : Desk} {d d' : Depot} (h : k.acts? d as = some (k', d')) :
    k.follow? (k.journal d as) = some k' := by
  induction as generalizing k d with
  | nil =>
    cases h
    rfl
  | cons a as ih =>
    obtain ⟨⟨k₁, d₁⟩, ha, h⟩ := Option.bind_eq_some_iff.mp (by simpa [acts?] using h)
    rw [journal, ha, follow?_cons, enter?, ha]
    exact ih h

/-! ## Looks -/

/-- A look: all that had happened before it, who was looked at, and when. -/
structure Sight where
  before : List Entry
  desk : Desk
  depot : Depot
  time : Nat

def Sight.entry (v : Sight) (n : Nat) : Entry := .act (.look n v.time) v.depot

/-- All that had happened when wait `n` had looked. -/
def Sight.until (v : Sight) (n : Nat) : List Entry := v.before ++ [v.entry n]

/-- In this journal, wait `n` looked so. -/
structure Looked (k₀ : Desk) (log : List Entry) (n : Nat) (v : Sight) : Prop where
  written : v.until n <+: log
  found : k₀.follow? v.before = some v.desk

theorem Looked.append {v : Sight} (h : k₀.Looked log n v) (more : List Entry) : k₀.Looked (log ++ more) n v :=
  ⟨h.written.trans (List.prefix_append ..), h.found⟩

theorem Looked.course {v : Sight} (h : k₀.Looked log n v) (hl : k₀.follow? log = some k) : v.desk.Course k := by
  obtain ⟨rest, rfl⟩ := h.written
  rw [Sight.until, List.append_assoc, follow?_append, h.found] at hl
  exact follow?_course hl

theorem Looked.of_snoc {v : Sight} (h : k₀.Looked (log ++ [x]) n v) :
    k₀.Looked log n v ∨ v.before = log ∧ v.entry n = x := by
  rcases List.prefix_concat_iff.mp h.written with he | hw
  · obtain ⟨hb, he⟩ := List.append_inj' he rfl
    exact .inr ⟨hb, (List.cons.inj he).1⟩
  · exact .inl ⟨hw, h.found⟩

end Desk

/-! ## In an office -/

namespace Office

/-- What these events lead to, if all of them can happen. -/
def follow? (s : Office) (es : List Event) : Option Office := es.foldlM after? s

theorem follow?_snoc (s : Office) (es : List Event) (e : Event) :
    s.follow? (es ++ [e]) = (s.follow? es).bind fun t => t.after? e := by
  simp [follow?]

end Office

end Courier

import Courier.Batch.Turn

/-!
# Trays

A tray is what a batcher looks like to those who use it, one after the other: items wait on it, and all of them go
out as one batch when there are enough, when the alarm goes off, by hand, or when the tray is disposed of.
-/

namespace Courier

/-- What somebody does with a batcher, from beginning to end. -/
inductive BatchAct (α : Type)
  | add (x : α)
  | flush
  /-- The alarms go off that are armed. -/
  | ring
  /-- The alarms go off although they were disarmed, or armed anew, after they were due. -/
  | late
  | dispose

def BatchAct.disposes {α : Type} : BatchAct α → Bool
  | .dispose => true
  | _ => false

structure BatchCall (α ω : Type) where
  act : BatchAct α
  out : List ω
  reply : BatchReply

namespace BatchCall

variable {α ω ψ : Type}

def map (f : ω → ψ) (c : BatchCall α ω) : BatchCall α ψ := { c with out := c.out.map f }

def taken? (c : BatchCall α ω) : Option α :=
  match c.act, c.reply with
  | .add x, .taken true => some x
  | _, _ => none

end BatchCall

/-! ## Runs -/

section
variable {σ τ α ω ψ : Type}

/-- The calls that these acts come to, and the state after them. -/
def callsOf (perform : σ → BatchAct α → List ω × σ × BatchReply) (s : σ) :
    List (BatchAct α) → List (BatchCall α ω) × σ
  | [] => ([], s)
  | a :: acts =>
    let (out, s, reply) := perform s a
    let (calls, s) := callsOf perform s acts
    (⟨a, out, reply⟩ :: calls, s)

def takenIn (calls : List (BatchCall α ω)) : List α := calls.filterMap BatchCall.taken?

def sentIn (calls : List (BatchCall α ω)) : List ω := calls.flatMap BatchCall.out

theorem takenIn_cons (c : BatchCall α ω) (calls : List (BatchCall α ω)) :
    takenIn (c :: calls) = c.taken?.toList ++ takenIn calls := by
  unfold takenIn
  rw [List.filterMap_cons]
  cases c.taken? <;> rfl

theorem sentIn_cons (c : BatchCall α ω) (calls : List (BatchCall α ω)) :
    sentIn (c :: calls) = c.out ++ sentIn calls := List.flatMap_cons

theorem takenIn_map (f : ω → ψ) (calls : List (BatchCall α ω)) : takenIn (calls.map (.map f)) = takenIn calls := by
  unfold takenIn
  rw [List.filterMap_map]
  rfl

theorem sentIn_map (f : ω → ψ) (calls : List (BatchCall α ω)) :
    sentIn (calls.map (.map f)) = (sentIn calls).map f := by
  unfold sentIn
  rw [List.flatMap_map, List.map_flatMap]
  rfl

theorem callsOf_acts (perform : σ → BatchAct α → List ω × σ × BatchReply) (s : σ) (acts : List (BatchAct α)) :
    (callsOf perform s acts).1.map BatchCall.act = acts := by
  induction acts generalizing s with
  | nil => rfl
  | cons a acts ih => simp [callsOf, ih]

theorem add_mem_of_taken {perform : σ → BatchAct α → List ω × σ × BatchReply} {s : σ} {acts : List (BatchAct α)} {x : α}
    (hx : x ∈ takenIn (callsOf perform s acts).1) : .add x ∈ acts := by
  obtain ⟨c, hc, ht⟩ := List.mem_filterMap.mp hx
  -- A call that took an item is one that handed it over.
  have ha : c.act = .add x := by
    unfold BatchCall.taken? at ht
    split at ht
    · next y ha _ =>
      rw [ha, Option.some.inj ht]
    · cases ht
  rw [← callsOf_acts perform s acts, ← ha]
  exact List.mem_map_of_mem hc

theorem callsOf_alike {perform : σ → BatchAct α → List ψ × σ × BatchReply}
    {perform' : τ → BatchAct α → List ω × τ × BatchReply} {Like : σ → τ → Prop} {f : ω → ψ}
    (hstep : ∀ s t a, Like s t → ∃ s', perform s a = ((perform' t a).1.map f, s', (perform' t a).2.2) ∧
      Like s' (perform' t a).2.1)
    {s : σ} {t : τ} (h : Like s t) (acts : List (BatchAct α)) :
    (callsOf perform s acts).1 = (callsOf perform' t acts).1.map (.map f) ∧
      Like (callsOf perform s acts).2 (callsOf perform' t acts).2 := by
  induction acts generalizing s t with
  | nil => exact ⟨rfl, h⟩
  | cons a acts ih =>
    obtain ⟨s', hs, hl⟩ := hstep s t a h
    obtain ⟨hcalls, hlast⟩ := ih hl
    simp only [callsOf, hs, List.map_cons]
    refine ⟨?_, hlast⟩
    rw [hcalls]
    rfl

end

/-! ## Trays -/

structure Tray (α : Type) where
  waiting : List α := []
  disposed : Bool := false

namespace Tray

variable {α : Type} {size : Nat} {t : Tray α}

def batchOf (items : List α) : List (List α) := if items = [] then [] else [items]

def emptied (t : Tray α) : Tray α := { t with waiting := [] }

def perform (size : Nat) (t : Tray α) : BatchAct α → List (List α) × Tray α × BatchReply
  | .add x =>
    if t.disposed then ([], t, .disposed)
    else if t.waiting.length + 1 = size then (batchOf (t.waiting ++ [x]), t.emptied, .taken true)
    else ([], { t with waiting := t.waiting ++ [x] }, .taken true)
  | .flush => (batchOf t.waiting, t.emptied, .count t.waiting.length)
  | .ring => (batchOf t.waiting, t.emptied, .done)
  | .late => (batchOf t.waiting, t.emptied, .done)
  | .dispose => (batchOf t.waiting, { waiting := [], disposed := true }, .done)

/-- There is room for an item, and nothing waits once the tray was disposed of. -/
structure Sound (size : Nat) (t : Tray α) : Prop where
  room : t.waiting.length < size
  idle : t.disposed = true → t.waiting = []

@[simp] theorem batchOf_nil : batchOf ([] : List α) = [] := rfl

@[simp] theorem flatten_batchOf (items : List α) : (batchOf items).flatten = items := by
  unfold batchOf
  by_cases h : items = []
  · simp [h]
  · simp [h]

theorem length_of_mem_batchOf {items xs : List α} (hm : items ∈ batchOf xs) :
    1 ≤ items.length ∧ items.length = xs.length := by
  unfold batchOf at hm
  by_cases h : xs = []
  · simp [h] at hm
  · simp only [h, ite_false, List.mem_singleton] at hm
    subst hm
    exact ⟨List.length_pos_iff.mpr h, rfl⟩

@[simp] theorem emptied_waiting (t : Tray α) : t.emptied.waiting = [] := rfl

@[simp] theorem emptied_disposed (t : Tray α) : t.emptied.disposed = t.disposed := rfl

theorem emptied_of_waiting (h : t.waiting = []) : t.emptied = t := by
  unfold emptied
  rw [← h]

theorem Sound.emptied (h : t.Sound size) : t.emptied.Sound size := by
  have hr := h.room
  refine ⟨?_, fun _ => rfl⟩
  simp only [emptied_waiting, List.length_nil]
  omega

/-! ## One act -/

theorem add_cases (size : Nat) (t : Tray α) (x : α) :
    (t.disposed = true ∧ t.perform size (.add x) = ([], t, .disposed)) ∨
    (t.disposed = false ∧ t.waiting.length + 1 = size ∧
      t.perform size (.add x) = (batchOf (t.waiting ++ [x]), t.emptied, .taken true)) ∨
    (t.disposed = false ∧ t.waiting.length + 1 ≠ size ∧
      t.perform size (.add x) = ([], { t with waiting := t.waiting ++ [x] }, .taken true)) := by
  simp only [perform]
  by_cases hd : t.disposed = true
  · left
    exact ⟨hd, if_pos hd⟩
  · right
    have hf : t.disposed = false := by simpa using hd
    rw [if_neg hd]
    by_cases hl : t.waiting.length + 1 = size
    · left
      exact ⟨hf, hl, if_pos hl⟩
    · right
      exact ⟨hf, hl, if_neg hl⟩

theorem Sound.perform (h : t.Sound size) (a : BatchAct α) : (t.perform size a).2.1.Sound size := by
  have hr := h.room
  cases a with
  | add x =>
    rcases t.add_cases size x with ⟨-, hp⟩ | ⟨-, -, hp⟩ | ⟨hd, hl, hp⟩
    · rw [hp]
      exact h
    · rw [hp]
      exact h.emptied
    · rw [hp]
      refine ⟨?_, ?_⟩
      · simp only [List.length_append, List.length_singleton]
        omega
      · intro ht
        exact absurd (hd.symm.trans ht) Bool.false_ne_true
  | flush => exact h.emptied
  | ring => exact h.emptied
  | late => exact h.emptied
  | dispose =>
    refine ⟨?_, fun _ => rfl⟩
    simp only [Tray.perform, List.length_nil]
    omega

theorem perform_conserves (size : Nat) (t : Tray α) (a : BatchAct α) :
    t.waiting ++ (BatchCall.mk a (t.perform size a).1 (t.perform size a).2.2).taken?.toList =
      (t.perform size a).1.flatten ++ (t.perform size a).2.1.waiting := by
  cases a with
  | add x =>
    rcases t.add_cases size x with ⟨-, hp⟩ | ⟨-, -, hp⟩ | ⟨-, -, hp⟩
    · simp [hp, BatchCall.taken?]
    · simp [hp, BatchCall.taken?]
    · simp [hp, BatchCall.taken?]
  | flush => simp [perform, BatchCall.taken?]
  | ring => simp [perform, BatchCall.taken?]
  | late => simp [perform, BatchCall.taken?]
  | dispose => simp [perform, BatchCall.taken?]

theorem Sound.length_sent (h : t.Sound size) {a : BatchAct α} {items : List α} (hm : items ∈ (t.perform size a).1) :
    1 ≤ items.length ∧ items.length ≤ size := by
  have hr := h.room
  suffices ∃ xs : List α, items ∈ batchOf xs ∧ xs.length ≤ size by
    obtain ⟨xs, hi, hx⟩ := this
    have hl := length_of_mem_batchOf hi
    omega
  cases a with
  | add x =>
    rcases t.add_cases size x with ⟨-, hp⟩ | ⟨-, hl, hp⟩ | ⟨-, -, hp⟩
    · simp [hp] at hm
    · rw [hp] at hm
      exact ⟨_, hm, by simp [hl]⟩
    · simp [hp] at hm
  | flush => exact ⟨_, hm, by omega⟩
  | ring => exact ⟨_, hm, by omega⟩
  | late => exact ⟨_, hm, by omega⟩
  | dispose => exact ⟨_, hm, by omega⟩

theorem perform_disposed (size : Nat) (t : Tray α) (a : BatchAct α) :
    (t.perform size a).2.1.disposed = (t.disposed || a.disposes) := by
  cases a with
  | add x =>
    rcases t.add_cases size x with ⟨hd, hp⟩ | ⟨hd, -, hp⟩ | ⟨hd, -, hp⟩
    · simp [hp, hd, BatchAct.disposes]
    · simp [hp, hd, BatchAct.disposes]
    · simp [hp, hd, BatchAct.disposes]
  | flush => simp [perform, BatchAct.disposes]
  | ring => simp [perform, BatchAct.disposes]
  | late => simp [perform, BatchAct.disposes]
  | dispose => simp [perform, BatchAct.disposes]

theorem perform_add (size : Nat) (t : Tray α) (x : α) :
    (t.perform size (.add x)).2.2 = if t.disposed then .disposed else .taken true := by
  rcases t.add_cases size x with ⟨hd, hp⟩ | ⟨hd, -, hp⟩ | ⟨hd, -, hp⟩
  · simp [hp, hd]
  · simp [hp, hd]
  · simp [hp, hd]

/-! ## Runs -/

/-- What waited and what was taken is what went out, in this order, and what waits still. -/
theorem conserves (size : Nat) (t : Tray α) (acts : List (BatchAct α)) :
    t.waiting ++ takenIn (callsOf (perform size) t acts).1 =
      (sentIn (callsOf (perform size) t acts).1).flatten ++ (callsOf (perform size) t acts).2.waiting := by
  induction acts generalizing t with
  | nil => simp [callsOf, takenIn, sentIn]
  | cons a acts ih =>
    have hone := perform_conserves size t a
    have hrest := ih (t.perform size a).2.1
    simp only [callsOf, takenIn_cons, sentIn_cons, List.flatten_append]
    rw [← List.append_assoc, hone, List.append_assoc, hrest, List.append_assoc]

theorem Sound.run (h : t.Sound size) (acts : List (BatchAct α)) :
    (callsOf (Tray.perform size) t acts).2.Sound size := by
  induction acts generalizing t with
  | nil => exact h
  | cons a acts ih => exact ih (h.perform a)

theorem Sound.length_batches (h : t.Sound size) {acts : List (BatchAct α)} {items : List α}
    (hm : items ∈ sentIn (callsOf (Tray.perform size) t acts).1) : 1 ≤ items.length ∧ items.length ≤ size := by
  induction acts generalizing t with
  | nil => simp [callsOf, sentIn] at hm
  | cons a acts ih =>
    simp only [callsOf, sentIn_cons, List.mem_append] at hm
    rcases hm with hm | hm
    · exact h.length_sent hm
    · exact ih (h.perform a) hm

theorem run_disposed (size : Nat) (t : Tray α) (acts : List (BatchAct α)) :
    (callsOf (perform size) t acts).2.disposed = (t.disposed || acts.any BatchAct.disposes) := by
  induction acts generalizing t with
  | nil => simp [callsOf]
  | cons a acts ih => simp [callsOf, ih, perform_disposed, Bool.or_assoc]

theorem run_add (size : Nat) (t : Tray α) {acts : List (BatchAct α)} {before after : List (BatchCall α (List α))}
    {c : BatchCall α (List α)} (hc : (callsOf (perform size) t acts).1 = before ++ c :: after) (hx : c.act = .add x) :
    c.reply = if t.disposed || before.any (·.act.disposes) then .disposed else .taken true := by
  induction acts generalizing t before with
  | nil => simp [callsOf] at hc
  | cons a acts ih =>
    simp only [callsOf] at hc
    cases before with
    | nil =>
      obtain ⟨rfl, -⟩ := List.cons.inj hc
      simp only at hx
      subst hx
      simp [perform_add]
    | cons d before =>
      obtain ⟨rfl, hrest⟩ := List.cons.inj hc
      rw [ih _ hrest, perform_disposed, List.any_cons, Bool.or_assoc]

theorem run_flush (size : Nat) (t : Tray α) {acts : List (BatchAct α)} {c : BatchCall α (List α)}
    (hc : c ∈ (callsOf (perform size) t acts).1) (hf : c.act = .flush) : c.reply = .count c.out.flatten.length := by
  induction acts generalizing t with
  | nil => simp [callsOf] at hc
  | cons a acts ih =>
    simp only [callsOf, List.mem_cons] at hc
    rcases hc with rfl | hc
    · simp only at hf
      subst hf
      simp [perform]
    · exact ih _ hc

end Tray

end Courier

import Courier.Batch.Alarm
import Courier.Batch.Turn

/-!
# Bins with alarms

A bin is what one buffer of a batcher looks like: the items that wait in it, and the alarm that is to send them. Each
thing that is done with a batcher moves each of its bins in one of a few ways, and that is all there is to know in
order to tell for whom an alarm was armed.
-/

namespace Courier

structure Bin (α : Type) where
  items : List α
  alarm : Alarm Unit
  interval : Duration
  /-- Whether nothing comes in any more. -/
  closed : Bool

namespace Bin

/-- The ways in which a bin moves when this item is handed over, or none is. -/
inductive Step {α : Type} : Option α → Bin α → Bin α → Prop
  | same {x? c} : Step x? c c
  /-- The first item arms the alarm, whatever that was armed for. -/
  | first {x c} (ho : c.closed = false) (he : c.items = []) :
    Step (some x) c { c with items := [x], alarm := c.alarm.arm c.interval () }
  | more {x c} (he : c.items ≠ []) : Step (some x) c { c with items := c.items ++ [x] }
  /-- The alarm stays as it is. -/
  | sent {x? c} : Step x? c { c with items := [] }
  | quiet {x? c} : Step x? c { c with items := [], alarm := c.alarm.disarm }
  | shut {x? c} : Step x? c { c with items := [], alarm := c.alarm.disarm, closed := true }

variable {α : Type} {c c' : Bin α} {x? : Option α}

theorem Step.interval (h : Step x? c c') : c'.interval = c.interval := by
  cases h <;> rfl

theorem Step.closed (h : Step x? c c') (hc : c.closed = true) : c'.closed = true := by
  cases h with
  | shut => rfl
  | _ => exact hc

theorem Step.still (h : Step x? c c') (hc : c.closed = true → c.alarm.isArmed = false) (hc' : c'.closed = true) :
    c'.alarm.isArmed = false := by
  cases h with
  | same => exact hc hc'
  | first ho => rw [ho] at hc'; cases hc'
  | more => exact hc hc'
  | sent => exact hc hc'
  | quiet => rfl
  | shut => rfl

end Bin

/-! ## What is done with the bins -/

/-- What somebody does, from beginning to end; each alarm goes off by itself, if it is armed. -/
inductive BinAct (α ι : Type)
  | add (x : α)
  | flush
  | ring (i : ι)
  | dispose

def BinAct.item? {α ι : Type} : BinAct α ι → Option α
  | .add x => some x
  | _ => none

inductive Moment (α ι : Type)
  | act (a : BinAct α ι)
  /-- Time goes by. -/
  | wait (nanos : Nat)

/-- Something that has bins. -/
structure Bins (σ α ι : Type) where
  perform : σ → BinAct α ι → List Emission × σ × BatchReply
  bin : σ → ι → Bin α
  disarm : σ → ι → σ

def elapsed {α ι : Type} : List (Moment α ι) → Nat
  | [] => 0
  | .wait n :: past => elapsed past + n
  | .act _ :: past => elapsed past

namespace Bins

variable {σ α ι : Type}

section
variable (B : Bins σ α ι) (first : σ)

def after : List (Moment α ι) → σ
  | [] => first
  | .wait _ :: past => after past
  | .act a :: past => (B.perform (after past) a).2.1

def alarm (past : List (Moment α ι)) (i : ι) : Alarm Unit := (B.bin (B.after first past) i).alarm

def items (past : List (Moment α ι)) (i : ι) : List α := (B.bin (B.after first past) i).items

def armedFor (i : ι) : List (Moment α ι) → Nat
  | [] => 0
  | .wait n :: past => armedFor i past + n
  | .act a :: past =>
    if (B.alarm first (.act a :: past) i).armCount = (B.alarm first past i).armCount then armedFor i past else 0

/-- The clock does not go beyond the moment in which an armed alarm is due: the alarm goes off before that. -/
def Punctual : List (Moment α ι) → Prop
  | [] => True
  | .wait n :: past =>
    Punctual past ∧
      ∀ i delay, (B.alarm first past i).delay? = some delay → B.armedFor first i past + n ≤ delay.nanos
  | .act _ :: past => Punctual past

/-- An item came when nothing waited, and the alarm was armed for it. Ever since then it has been the first one that
waits, and nobody has touched the alarm. -/
structure Behind (interval : Duration) (i : ι) (x : α) (before since : List (Moment α ι)) : Prop where
  empty : B.items first before i = []
  since : ∀ mid, mid <:+ since →
    (∃ rest, B.items first (mid ++ .act (.add x) :: before) i = x :: rest) ∧
    B.alarm first (mid ++ .act (.add x) :: before) i = (B.alarm first before i).arm interval ()

/-- No item is left without an alarm of its own, and none goes out by an alarm that was armed for another one. -/
structure Tended (interval : Duration) : Prop where
  armed : ∀ past i, B.items first past i ≠ [] → (B.alarm first past i).delay? = some interval
  behind : ∀ past i, B.items first past i ≠ [] →
    ∃ since x before, past = since ++ .act (.add x) :: before ∧ B.Behind first interval i x before since ∧
      (B.Punctual first past → elapsed since ≤ interval.nanos)
  stale : ∀ past i, (B.alarm first past i).isArmed = true → B.items first past i = [] →
    B.perform (B.after first past) (.ring i) = ([], B.disarm (B.after first past) i, .done)
  closed : ∀ past i, .act .dispose ∈ past → (B.alarm first past i).isArmed = false

/-- In these states the bins move in no other way. -/
structure Lawful (Inv : σ → Prop) : Prop where
  keeps : ∀ {s}, Inv s → ∀ a, Inv (B.perform s a).2.1
  step : ∀ {s}, Inv s → ∀ a i, Bin.Step a.item? (B.bin s i) (B.bin (B.perform s a).2.1 i)
  closes : ∀ {s}, Inv s → ∀ i, (B.bin (B.perform s .dispose).2.1 i).closed = true
  stale : ∀ {s}, Inv s → ∀ i, (B.bin s i).alarm.isArmed = true → (B.bin s i).items = [] →
    B.perform s (.ring i) = ([], B.disarm s i, .done)

end

variable {B : Bins σ α ι} {first : σ} {Inv : σ → Prop} {interval : Duration} {i : ι} {x : α}
  {before since past : List (Moment α ι)}

theorem Lawful.after (h : B.Lawful Inv) (hf : Inv first) (past : List (Moment α ι)) : Inv (B.after first past) := by
  induction past with
  | nil => exact hf
  | cons m past ih =>
    cases m with
    | wait n => exact ih
    | act a => exact h.keeps ih a

/-! ## Behind each item its alarm -/

theorem Behind.nil (he : B.items first before i = [])
    (hx : B.items first (.act (.add x) :: before) i = [x])
    (ha : B.alarm first (.act (.add x) :: before) i = (B.alarm first before i).arm interval ()) :
    B.Behind first interval i x before [] := by
  refine ⟨he, ?_⟩
  intro mid hm
  rw [List.suffix_nil.mp hm]
  exact ⟨⟨[], hx⟩, ha⟩

theorem Behind.now (h : B.Behind first interval i x before since) :
    (∃ rest, B.items first (since ++ .act (.add x) :: before) i = x :: rest) ∧
    B.alarm first (since ++ .act (.add x) :: before) i = (B.alarm first before i).arm interval () :=
  h.since since (List.suffix_refl since)

theorem Behind.delay (h : B.Behind first interval i x before since) :
    (B.alarm first (since ++ .act (.add x) :: before) i).delay? = some interval := by
  rw [h.now.2]
  rfl

theorem Behind.tail {m : Moment α ι} (h : B.Behind first interval i x before (m :: since)) :
    B.Behind first interval i x before since :=
  ⟨h.empty, fun mid hm => h.since mid (hm.trans (List.suffix_cons m since))⟩

theorem Behind.cons (h : B.Behind first interval i x before since) {m : Moment α ι}
    (hx : ∃ ys, B.items first (m :: (since ++ .act (.add x) :: before)) i =
      B.items first (since ++ .act (.add x) :: before) i ++ ys)
    (ha : B.alarm first (m :: (since ++ .act (.add x) :: before)) i =
      B.alarm first (since ++ .act (.add x) :: before) i) : B.Behind first interval i x before (m :: since) := by
  refine ⟨h.empty, ?_⟩
  intro mid hm
  rcases List.suffix_cons_iff.mp hm with rfl | hm
  · obtain ⟨⟨rest, hrest⟩, halarm⟩ := h.now
    obtain ⟨ys, hys⟩ := hx
    refine ⟨⟨rest ++ ys, ?_⟩, ha.trans halarm⟩
    rw [List.cons_append, hys, hrest]
    rfl
  · exact h.since mid hm

theorem item?_eq_some {a : BinAct α ι} (h : a.item? = some x) : a = .add x := by
  cases a with
  | add y => cases h; rfl
  | _ => cases h

theorem Lawful.keeps_interval (h : B.Lawful Inv) (hf : Inv first) (hi : (B.bin first i).interval = interval)
    (past : List (Moment α ι)) : (B.bin (B.after first past) i).interval = interval := by
  induction past with
  | nil => exact hi
  | cons m past ih =>
    cases m with
    | wait n => exact ih
    | act a => exact (h.step (h.after hf past) a i).interval.trans ih

theorem Lawful.behind (h : B.Lawful Inv) (hf : Inv first) (hempty : (B.bin first i).items = [])
    (hi : (B.bin first i).interval = interval) (past : List (Moment α ι)) (hne : B.items first past i ≠ []) :
    ∃ since x before, past = since ++ .act (.add x) :: before ∧ B.Behind first interval i x before since := by
  -- What waits after an act waited before it, and its alarm is still there, or it has come with this act.
  induction past with
  | nil => exact absurd hempty hne
  | cons m past ih =>
    cases m with
    | wait n =>
      obtain ⟨since, x, before, rfl, hb⟩ := ih hne
      refine ⟨.wait n :: since, x, before, rfl, hb.cons ⟨[], ?_⟩ rfl⟩
      rw [List.append_nil]
      rfl
    | act a =>
      have hstep := h.step (h.after hf past) a i
      have hint := h.keeps_interval hf hi past
      generalize hc : B.bin (B.after first past) i = c at hstep hint
      generalize hc' : B.bin (B.perform (B.after first past) a).2.1 i = c' at hstep
      have hold : B.items first past i = c.items := congrArg Bin.items hc
      have hnew : B.items first (.act a :: past) i = c'.items := congrArg Bin.items hc'
      have hold' : B.alarm first past i = c.alarm := congrArg Bin.alarm hc
      have hnew' : B.alarm first (.act a :: past) i = c'.alarm := congrArg Bin.alarm hc'
      generalize hx? : a.item? = x? at hstep
      rw [hnew] at hne
      cases hstep with
      | same =>
        obtain ⟨since, x, before, rfl, hb⟩ := ih (by rw [hold]; exact hne)
        refine ⟨.act a :: since, x, before, rfl, hb.cons ⟨[], ?_⟩ (hnew'.trans hold'.symm)⟩
        rw [List.append_nil, hold]
        exact hnew
      | @first x _ ho he =>
        cases item?_eq_some hx?
        refine ⟨[], x, past, rfl, .nil (hold.trans he) hnew ?_⟩
        rw [hnew', hold', ← hint]
      | @more x _ he =>
        obtain ⟨since, y, before, rfl, hb⟩ := ih (by rw [hold]; exact he)
        refine ⟨.act a :: since, y, before, rfl, hb.cons ⟨[x], ?_⟩ (hnew'.trans hold'.symm)⟩
        rw [hold]
        exact hnew
      | sent => exact absurd rfl hne
      | quiet => exact absurd rfl hne
      | shut => exact absurd rfl hne

/-! ## Time -/

theorem Behind.armedFor (h : B.Behind first interval i x before since) :
    B.armedFor first i (since ++ .act (.add x) :: before) = elapsed since := by
  induction since with
  | nil =>
    have ha : B.alarm first (.act (.add x) :: before) i = (B.alarm first before i).arm interval () := h.now.2
    rw [List.nil_append, Bins.armedFor, ha]
    exact if_neg (Nat.succ_ne_self _)
  | cons m since ih =>
    have hold := h.tail.now.2
    have hnew := h.now.2
    cases m with
    | wait n => rw [List.cons_append, Bins.armedFor, ih h.tail, elapsed]
    | act a =>
      rw [List.cons_append] at hnew
      rw [List.cons_append, Bins.armedFor, hnew, hold, if_pos rfl, ih h.tail, elapsed]

/-- As long as the clock lets alarms go off in time, an item does not wait longer than its alarm. -/
theorem Behind.elapsed_le (h : B.Behind first interval i x before since)
    (hp : B.Punctual first (since ++ .act (.add x) :: before)) : elapsed since ≤ interval.nanos := by
  induction since with
  | nil => exact Nat.zero_le _
  | cons m since ih =>
    cases m with
    | wait n =>
      rw [List.cons_append, Punctual] at hp
      have hle := hp.2 i interval h.tail.delay
      rw [h.tail.armedFor] at hle
      exact hle
    | act a => exact ih h.tail hp

theorem Punctual.wait {n : Nat} (hp : B.Punctual first past)
    (h : ∀ i, (B.alarm first past i).delay?.all (fun delay => B.armedFor first i past + n ≤ delay.nanos) = true) :
    B.Punctual first (.wait n :: past) := by
  refine ⟨hp, ?_⟩
  intro i delay hd
  have hi := h i
  rw [hd, Option.all_some] at hi
  exact of_decide_eq_true hi

/-! ## After the end -/

theorem Lawful.still (h : B.Lawful Inv) (hf : Inv first) (ho : (B.bin first i).closed = false)
    (past : List (Moment α ι)) (hc : (B.bin (B.after first past) i).closed = true) :
    (B.alarm first past i).isArmed = false := by
  induction past with
  | nil => rw [Bins.after, ho] at hc; cases hc
  | cons m past ih =>
    cases m with
    | wait n => exact ih hc
    | act a => exact (h.step (h.after hf past) a i).still ih hc

theorem Lawful.closed (h : B.Lawful Inv) (hf : Inv first) (hd : .act .dispose ∈ past) :
    (B.bin (B.after first past) i).closed = true := by
  induction past with
  | nil => cases hd
  | cons m past ih =>
    cases m with
    | wait n => exact ih ((List.mem_cons.mp hd).resolve_left nofun)
    | act a =>
      rcases List.mem_cons.mp hd with hd | hd
      · cases hd
        exact h.closes (h.after hf past) i
      · exact (h.step (h.after hf past) a i).closed (ih hd)

theorem Lawful.tended (h : B.Lawful Inv) (hf : Inv first) (hempty : ∀ i, B.bin first i = ⟨[], {}, interval, false⟩) :
    B.Tended first interval where
  armed past i hne := by
    obtain ⟨since, x, before, rfl, hb⟩ := h.behind hf (by rw [hempty i]) (by rw [hempty i]) past hne
    exact hb.delay
  behind past i hne := by
    obtain ⟨since, x, before, rfl, hb⟩ := h.behind hf (by rw [hempty i]) (by rw [hempty i]) past hne
    exact ⟨since, x, before, rfl, hb, hb.elapsed_le⟩
  stale past i ha he := h.stale (h.after hf past) i ha he
  closed past i hd := h.still hf (by rw [hempty i]) past (h.closed hf hd)

end Bins

end Courier

import Courier.Time

/-!
# Agendas

Virtual time, in whole milliseconds, and what is due when. Time moves only to the next thing that is due.
-/

namespace Courier

/-- A duration in milliseconds; a part of one counts as a whole. -/
def Duration.ticks (d : Duration) : Nat := (d.nanos + 999999) / 10 ^ 6

structure Agenda (τ : Type) where
  now : Nat := 0
  /-- What is due and when, in the order in which it was entered. -/
  entries : List (Nat × τ) := []
  deriving Inhabited

namespace Agenda

variable {τ : Type}

def add (a : Agenda τ) (delay : Nat) (x : τ) : Agenda τ :=
  { a with entries := a.entries ++ [(a.now + delay, x)] }

def cancel (a : Agenda τ) (which : τ → Bool) : Agenda τ :=
  { a with entries := a.entries.filter fun e => !which e.2 }

def next? (a : Agenda τ) : Option Nat := (a.entries.map Prod.fst).min?

/-- Moves time on and takes out what is due then, in the order in which it was entered. -/
def moveTo (a : Agenda τ) (t : Nat) : List τ × Agenda τ :=
  ((a.entries.filter (·.1 ≤ t)).map Prod.snd, ⟨max a.now t, a.entries.filter (t < ·.1)⟩)

def takeAt (t : Nat) : List (Nat × τ) → Option (τ × List (Nat × τ))
  | [] => none
  | (at_, x) :: rest =>
    if at_ = t then some (x, rest)
    else (takeAt t rest).map fun (y, rest) => (y, (at_, x) :: rest)

/-- Takes out the one thing that is due first, if it is due by `limit`, and moves time there. -/
def popBy (a : Agenda τ) (limit : Nat) : Option (τ × Agenda τ) :=
  match a.next? with
  | none => none
  | some t =>
    if limit < t then none
    else (takeAt t a.entries).map fun (x, entries) => (x, ⟨max a.now t, entries⟩)

end Agenda

end Courier

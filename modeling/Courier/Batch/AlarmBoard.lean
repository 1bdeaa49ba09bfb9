import Courier.Agenda
import Courier.Batch.Alarm

/-!
# Alarm boards

Numbered alarms. Those on an agenda go off by themselves; without an agenda they are fired by hand.
-/

namespace Courier

/-- The alarms that are due, by number and by how often they had been armed then. -/
abbrev AlarmAgenda := Agenda (Nat × Nat)

namespace AlarmAgenda

variable {κ : Type}

/-- Enters what an alarm is armed for, unless it is there, and strikes out what it was armed for before. -/
def keep (a : AlarmAgenda) (number : Nat) (alarm : Alarm κ) : AlarmAgenda :=
  let a := a.cancel fun e => e.1 == number && (e.2 != alarm.armCount || !alarm.isArmed)
  match alarm.delay? with
  | some delay =>
    if a.entries.any (·.2 == (number, alarm.armCount)) then a
    else a.add delay.ticks (number, alarm.armCount)
  | none => a

/-- Does so for all alarms, the first of which has this number. -/
def keepAll (a : AlarmAgenda) (number : Nat) : List (Alarm κ) → AlarmAgenda
  | [] => a
  | alarm :: rest => keepAll (a.keep number alarm) (number + 1) rest

end AlarmAgenda

structure AlarmBoard where
  alarms : List (Alarm String)
  agenda : Option AlarmAgenda := none
  /-- The alarms that nobody can arm any more. -/
  dropped : List Nat := []
  /-- What went off, in order. -/
  fired : List String := []

namespace AlarmBoard

def setAlarm (b : AlarmBoard) (i : Nat) (alarm : Alarm String) : AlarmBoard :=
  { b with
    alarms := b.alarms.set i alarm
    agenda := b.agenda.map fun a => a.keep i alarm }

def held? (b : AlarmBoard) (i : Nat) : Option (Alarm String) :=
  if b.dropped.contains i then none else b.alarms[i]?

def arm (b : AlarmBoard) (i : Nat) (delay : Duration) (name : String) : AlarmBoard :=
  match b.held? i with
  | some alarm => b.setAlarm i (alarm.arm delay name)
  | none => b

def disarm (b : AlarmBoard) (i : Nat) : AlarmBoard :=
  match b.held? i with
  | some alarm => b.setAlarm i alarm.disarm
  | none => b

/-- Gives an alarm up; one that goes off by itself is disarmed. -/
def drop (b : AlarmBoard) (i : Nat) : AlarmBoard :=
  let b := if b.agenda.isSome then b.disarm i else b
  { b with dropped := i :: b.dropped }

/-- Lets an alarm go off; whether it was armed, and `none` if there is no such alarm. -/
def ring (b : AlarmBoard) (i : Nat) : Option Bool × AlarmBoard :=
  match b.alarms[i]? with
  | none => (none, b)
  | some alarm =>
    let (name, alarm) := alarm.fire
    (some name.isSome, { b.setAlarm i alarm with fired := b.fired ++ name.toList })

/-- Fires an alarm by hand; there are none to fire on an agenda. -/
def fire (b : AlarmBoard) (i : Nat) : Option Bool × AlarmBoard :=
  if b.agenda.isSome then (none, b) else b.ring i

def fireAll (b : AlarmBoard) : Nat × AlarmBoard :=
  (List.range b.alarms.length).foldl
    (fun (n, b) i =>
      let (r, b) := b.fire i
      (if r == some true then n + 1 else n, b))
    (0, b)

def sleep (b : AlarmBoard) (ticks : Nat) : AlarmBoard :=
  match b.agenda with
  | none => b
  | some a =>
    let end_ := a.now + ticks
    let b := (List.replicate a.entries.length ()).foldl
      (fun (b : AlarmBoard) _ =>
        match b.agenda.bind (·.popBy end_) with
        | none => b
        | some ((i, _), a) => ({ b with agenda := some a }.ring i).2)
      b
    { b with agenda := b.agenda.map fun a => { a with now := end_ } }

end AlarmBoard

end Courier

import Courier.Json.Document

/-!
# Records in JSON

A record is an object whose known members stand at most once each, or an array of the fields in their
order with the last ones left out. Members that are not known may hold anything.
-/

namespace Courier

/-- The fields that are there, by name. -/
abbrev Record := List (String × Document)

namespace Record

/-- Keeps the known members; none of them may be repeated, and every key must be text. -/
def ofMembers? (fields : List String) : List (Option String × Document) → Option Record
  | [] => some []
  | (none, _) :: _ => none
  | (some key, d) :: rest =>
    match ofMembers? fields rest with
    | none => none
    | some record =>
      if fields.contains key then
        if (record.lookup key).isSome then none else some ((key, d) :: record)
      else some record

def ofDocument? (fields : List String) : Document → Option Record
  | .obj members => ofMembers? fields members
  | .arr items => if items.length ≤ fields.length then some (fields.zip items) else none
  | _ => none

def required {α : Type} (r : Record) (name : String) (read : Document → Option α) : Option α :=
  (r.lookup name).bind read

def optional {α : Type} (r : Record) (name : String) (read : Document → Option α)
    (absent : α) : Option α :=
  match r.lookup name with
  | none => some absent
  | some d => read d

end Record

namespace Document

def natural? : Document → Option UInt64
  | num (some (.nat n)) => some n
  | _ => none

def below? (bound : Nat) (d : Document) : Option Nat :=
  d.natural?.bind fun n => if n.toNat < bound then some n.toNat else none

def float? : Document → Option Float
  | num (some (.nat n)) => some n.toFloat
  | num (some (.negSucc n)) => some (-(n.val + 1).toUInt64.toFloat)
  | num (some (.float x)) => some x
  | _ => none

def bool? : Document → Option Bool
  | bool b => some b
  | _ => none

def text? : Document → Option String
  | str s => s
  | _ => none

/-- A name by itself, or as the one key of an object that holds `null`. -/
def name? : Document → Option String
  | str s => s
  | obj [(key, null)] => key
  | _ => none

/-- `null`, or what `read` takes. -/
def nullable? {α : Type} (read : Document → Option α) : Document → Option (Option α)
  | null => some none
  | d => (read d).map some

def items? {α : Type} (read : Document → Option α) : Document → Option (List α)
  | arr items => items.mapM read
  | _ => none

def object? (room : Nat) (d : Document) : Option Object :=
  match toJson? room d with
  | some (.obj o) => some o
  | _ => none

end Document

end Courier

import Courier.Json.Value

/-!
# JSON documents

A document keeps members in their order and repeated keys. A number too large for a double and a string
with an unpaired surrogate are `none` in it: a document may hold them as long as nobody asks for their
value. Neither is its nesting bounded; that of a value is.
-/

namespace Courier

inductive Document
  | null
  | bool (b : Bool)
  | num (n : Option Number)
  | str (s : Option String)
  | arr (items : List Document)
  | obj (members : List (Option String × Document))

namespace Document

/-- How many arrays and objects may stand inside each other. -/
def nestingLimit : Nat := 127

mutual

/-- The value of a document with at most `room` levels of nesting. -/
def toJson? (room : Nat) : Document → Option Json
  | null => some .null
  | bool b => some (.bool b)
  | num n => n.map .num
  | str s => s.map .str
  | arr items => if room = 0 then none else (itemsToJson? (room - 1) items).map .arr
  | obj members =>
    if room = 0 then none
    else (membersToJson? (room - 1) members).map fun ms => .obj (Object.ofList ms)

def itemsToJson? (room : Nat) : List Document → Option (List Json)
  | [] => some []
  | d :: rest =>
    match toJson? room d, itemsToJson? room rest with
    | some v, some vs => some (v :: vs)
    | _, _ => none

def membersToJson? (room : Nat) : List (Option String × Document) → Option (List (String × Json))
  | [] => some []
  | (k, d) :: rest =>
    match k, toJson? room d, membersToJson? room rest with
    | some k, some v, some vs => some ((k, v) :: vs)
    | _, _, _ => none

end

mutual

def ofJson : Json → Document
  | .null => null
  | .bool b => bool b
  | .num n => num (some n)
  | .str s => str (some s)
  | .arr items => arr (ofItems items)
  | .obj members => obj (ofMembers members)

def ofItems : List Json → List Document
  | [] => []
  | v :: rest => ofJson v :: ofItems rest

def ofMembers : List (String × Json) → List (Option String × Document)
  | [] => []
  | (k, v) :: rest => (some k, ofJson v) :: ofMembers rest

end

end Document

end Courier

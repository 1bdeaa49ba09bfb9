import Courier.Arithmetic

/-!
# JSON values

Numbers keep how they were written: a natural number and a negative integer of 64 bits, or a double. An
object lists its members in the order of their keys, each key once.
-/

namespace Courier

inductive Number
  | nat (n : UInt64)
  /-- The integer `-n - 1`. -/
  | negSucc (n : Fin (2 ^ 63))
  | float (x : Float)
  deriving DecidableEq, Inhabited

inductive Json
  | null
  | bool (b : Bool)
  | num (n : Number)
  | str (s : String)
  | arr (items : List Json)
  | obj (members : List (String × Json))
  deriving Inhabited

abbrev Object := List (String × Json)

/-! ## Objects -/

namespace Object

def get? (o : Object) (key : String) : Option Json := o.lookup key

/-- Puts `value` under `key`, in key order, in place of an earlier one. -/
def set : Object → String → Json → Object
  | [], key, value => [(key, value)]
  | (k, v) :: rest, key, value =>
    if key < k then (key, value) :: (k, v) :: rest
    else if key = k then (key, value) :: rest
    else (k, v) :: set rest key value

/-- The object with these members; of a repeated key the last value stays. -/
def ofList (members : List (String × Json)) : Object :=
  members.foldl (fun o m => o.set m.1 m.2) []

end Object

namespace Json

def ofNat (n : UInt64) : Json := .num (.nat n)

def ofFloat (x : Float) : Json := if x.isFinite then .num (.float x) else .null

def string? : Json → Option String
  | str s => some s
  | _ => none

def natural? : Json → Option UInt64
  | num (.nat n) => some n
  | _ => none

/-! ## Merging -/

mutual

/-- Lays a value over another: objects merge, anything else replaces. -/
def merge (base : Json) : Json → Json
  | obj changes =>
    match base with
    | obj members => obj (mergeMembers members changes)
    | _ => obj changes
  | v => v

def mergeMembers (members : List (String × Json)) : List (String × Json) → List (String × Json)
  | [] => members
  | (key, v) :: rest =>
    let merged := merge ((members.lookup key).getD .null) v
    mergeMembers (Object.set (members.filter (·.1 != key)) key merged) rest

end

/-! ## Equality, with doubles compared by value -/

def sameNumber : Number → Number → Bool
  | .nat a, .nat b => a == b
  | .negSucc a, .negSucc b => a == b
  | .float a, .float b => a == b
  | _, _ => false

mutual

def same : Json → Json → Bool
  | null, null => true
  | bool a, bool b => a == b
  | num a, num b => sameNumber a b
  | str a, str b => a == b
  | arr a, arr b => sameItems a b
  | obj a, obj b => sameMembers a b
  | _, _ => false

def sameItems : List Json → List Json → Bool
  | [], [] => true
  | a :: as, b :: bs => same a b && sameItems as bs
  | _, _ => false

def sameMembers : List (String × Json) → List (String × Json) → Bool
  | [], [] => true
  | (k, a) :: as, (l, b) :: bs => k == l && same a b && sameMembers as bs
  | _, _ => false

end

instance : BEq Json := ⟨same⟩

/-! ## Objects in key order, throughout -/

mutual

def Ordered : Json → Prop
  | arr items => OrderedItems items
  | obj members => (members.map Prod.fst).Pairwise (· < ·) ∧ OrderedMembers members
  | _ => True

def OrderedItems : List Json → Prop
  | [] => True
  | v :: rest => Ordered v ∧ OrderedItems rest

def OrderedMembers : List (String × Json) → Prop
  | [] => True
  | (_, v) :: rest => Ordered v ∧ OrderedMembers rest

end

end Json

end Courier

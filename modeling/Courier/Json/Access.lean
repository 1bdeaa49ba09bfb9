import Courier.Json.Value

/-!
# Reading members

What is not there, or is of another kind, reads as a default.
-/

namespace Courier.Json

def get (j : Json) (key : String) : Json :=
  match j with
  | .obj o => (o.lookup key).getD .null
  | _ => .null

def isNull : Json → Bool
  | .null => true
  | _ => false

def some? (j : Json) (key : String) : Option Json :=
  let v := j.get key
  if v.isNull then none else some v

def has (j : Json) (key : String) : Bool := !(j.get key).isNull

def items : Json → List Json
  | .arr l => l
  | _ => []

def nth (j : Json) (i : Nat) : Json := j.items.getD i .null

def asWord (j : Json) : UInt64 := j.natural?.getD 0

def asText (j : Json) : String := j.string?.getD ""

/-! ## Members by kind -/

def word (j : Json) (key : String) (absent : UInt64 := 0) : UInt64 :=
  (j.get key).natural?.getD absent

def nat (j : Json) (key : String) (absent : Nat := 0) : Nat :=
  ((j.get key).natural?.map UInt64.toNat).getD absent

def string (j : Json) (key : String) (absent : String := "") : String :=
  (j.get key).string?.getD absent

def flag (j : Json) (key : String) (absent : Bool) : Bool :=
  match j.get key with
  | .bool b => b
  | _ => absent

def list (j : Json) (key : String) : List Json := (j.get key).items

end Courier.Json

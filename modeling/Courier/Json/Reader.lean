import Courier.Bytes
import Courier.Json.Document
import Courier.Json.Token

/-!
# Reading JSON

The tokens drive a stack of open arrays and objects, one token at a time. `Json.ofString?` reads a whole
text as one value.
-/

namespace Courier

namespace Document

/-- An array or object that is still open, its parts last one first. -/
inductive Frame
  | arr (items : List Document)
  | obj (members : List (Option String × Document)) (key : Option String)

/-- What may come next. -/
inductive Next
  | value
  /-- A value or the end, after the opening bracket. -/
  | firstItem
  /-- A key or the end, after the opening brace. -/
  | firstKey
  | key (members : List (Option String × Document))
  | colon (members : List (Option String × Document)) (key : Option String)
  /-- What follows a whole value. -/
  | after (value : Document)

structure State where
  frames : List Frame
  next : Next

def leaf? : Token → Option Document
  | .null => some .null
  | .bool b => some (.bool b)
  | .num n => some (.num n)
  | .str s => some (.str s)
  | _ => none

def value? (frames : List Frame) : Token → Option State
  | .bracketL => some ⟨frames, .firstItem⟩
  | .braceL => some ⟨frames, .firstKey⟩
  | t => (leaf? t).map fun d => ⟨frames, .after d⟩

def step? : State → Token → Option State
  | ⟨frames, .value⟩, t => value? frames t
  | ⟨frames, .firstItem⟩, .bracketR => some ⟨frames, .after (.arr [])⟩
  | ⟨frames, .firstItem⟩, t => value? (.arr [] :: frames) t
  | ⟨frames, .firstKey⟩, .braceR => some ⟨frames, .after (.obj [])⟩
  | ⟨frames, .firstKey⟩, .str k => some ⟨frames, .colon [] k⟩
  | ⟨frames, .key ms⟩, .str k => some ⟨frames, .colon ms k⟩
  | ⟨frames, .colon ms k⟩, .colon => some ⟨.obj ms k :: frames, .value⟩
  | ⟨.arr items :: frames, .after d⟩, .comma => some ⟨.arr (d :: items) :: frames, .value⟩
  | ⟨.arr items :: frames, .after d⟩, .bracketR =>
    some ⟨frames, .after (.arr (d :: items).reverse)⟩
  | ⟨.obj ms k :: frames, .after d⟩, .comma => some ⟨frames, .key ((k, d) :: ms)⟩
  | ⟨.obj ms k :: frames, .after d⟩, .braceR =>
    some ⟨frames, .after (.obj ((k, d) :: ms).reverse)⟩
  | _, _ => none

def run? : State → List Token → Option State
  | s, [] => some s
  | s, t :: ts =>
    match step? s t with
    | none => none
    | some s => run? s ts

def ofTokens? (ts : List Token) : Option Document :=
  match run? ⟨[], .value⟩ ts with
  | some ⟨[], .after d⟩ => some d
  | _ => none

def ofChars? (cs : List Char) : Option Document := (Token.scan? cs).bind ofTokens?

def ofString? (s : String) : Option Document := ofChars? s.toList

end Document

namespace Json

def ofChars? (cs : List Char) : Option Json :=
  (Document.ofChars? cs).bind (Document.toJson? Document.nestingLimit)

def ofString? (s : String) : Option Json := ofChars? s.toList

def ofBytes? (b : Bytes) : Option Json := (Bytes.toString? b).bind ofString?

end Json

end Courier

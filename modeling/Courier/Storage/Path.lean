/-!
# Paths

A path is kept as it was given and means its parts: empty parts and dots do not count, save a dot at the
very start. Paths are compared part by part.
-/

namespace Courier

inductive Part
  | root
  | here
  | up
  | name (s : String)
  deriving DecidableEq, Repr

structure Path where
  text : String
  deriving DecidableEq, Repr, Inhabited

namespace Part

def rank : Part → Nat
  | root => 0
  | here => 1
  | up => 2
  | name _ => 3

/-- The root comes first, then a leading dot, then the parent, then names by their bytes. -/
def before : Part → Part → Bool
  | name a, name b => a < b
  | a, b => a.rank < b.rank

def text : Part → String
  | root => "/"
  | here => "."
  | up => ".."
  | name s => s

end Part

/-- Part by part; a path comes before those that it is the start of. -/
def partsBefore : List Part → List Part → Bool
  | [], [] => false
  | [], _ :: _ => true
  | _ :: _, [] => false
  | a :: as, b :: bs => a.before b || (a == b && partsBefore as bs)

namespace Path

/-- What one segment between slashes means; a dot counts at the start only. -/
def partOf (first : Bool) (segment : List Char) : Option Part :=
  if segment = [] then none
  else if segment = ['.'] then (if first then some .here else none)
  else if segment = ['.', '.'] then some .up
  else some (.name (String.ofList segment))

/-- The parts from a segment on that has been read up to `at_`, each with the place where it ends; the
segment is kept last character first. -/
def scan (first : Bool) (segment : List Char) (at_ : Nat) : List Char → List (Part × Nat)
  | [] => (partOf first segment.reverse).toList.map (·, at_)
  | '/' :: cs => (partOf first segment.reverse).toList.map (·, at_) ++ scan false [] (at_ + 1) cs
  | c :: cs => scan first (c :: segment) (at_ + 1) cs

/-- The parts, each with the place in the text where it ends. -/
def placedParts (p : Path) : List (Part × Nat) :=
  match p.text.toList with
  | '/' :: cs => (.root, 1) :: scan false [] 1 cs
  | cs => scan true [] 0 cs

def parts (p : Path) : List Part := p.placedParts.map Prod.fst

def same (a b : Path) : Bool := a.parts == b.parts

def before (a b : Path) : Bool := partsBefore a.parts b.parts

def isEmpty (p : Path) : Bool := p.text.isEmpty

/-- The path without its last part; the root and the empty path have none. -/
def parent? (p : Path) : Option Path :=
  match p.placedParts.reverse with
  | [] => none
  | [(.root, _)] => none
  | [_] => some ⟨""⟩
  | _ :: (_, stop) :: _ => some ⟨String.ofList (p.text.toList.take stop)⟩

def ancestors (p : Path) : List Path := go p.placedParts.length p
where
  go : Nat → Path → List Path
    | 0, p => [p]
    | n + 1, p =>
      match p.parent? with
      | some q => p :: go n q
      | none => [p]

def fileName? (p : Path) : Option String :=
  match p.parts.getLast? with
  | some (.name s) => some s
  | _ => none

/-- A name split at its last dot. -/
def splitName (s : String) : String × Option String :=
  let cs := s.toList.reverse
  -- a dot with nothing in front of it splits nothing
  match cs.dropWhile (· ≠ '.') with
  | _ :: c :: before =>
    (String.ofList (c :: before).reverse, some (String.ofList (cs.takeWhile (· ≠ '.')).reverse))
  | _ => (s, none)

def stem? (p : Path) : Option String := p.fileName?.map fun s => (splitName s).1

def extension? (p : Path) : Option String := p.fileName?.bind fun s => (splitName s).2

def join (dir : Path) (name : String) : Path :=
  if dir.text.isEmpty then ⟨name⟩
  else if dir.text.endsWith "/" then ⟨dir.text ++ name⟩
  else ⟨dir.text ++ "/" ++ name⟩

def textOf : List Part → String
  | [] => ""
  | .root :: rest => "/" ++ "/".intercalate (rest.map Part.text)
  | ps => "/".intercalate (ps.map Part.text)

def normal (p : Path) : Path := ⟨textOf p.parts⟩

/-- The plain spelling of a path that starts at a known directory, where a leading dot says nothing. -/
def within (p : Path) : Path := ⟨textOf (p.parts.filter (· ≠ .here))⟩

end Path

end Courier

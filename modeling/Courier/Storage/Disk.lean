import Courier.Bytes
import Courier.Storage.Error

/-!
# Files on a disk

A tree of directories under a top that stands for the working directory. Files are numbered, since a lock
belongs to a file and not to its name: a file that takes the place of another is not locked.
-/

namespace Courier

inductive DiskNode
  | file (number : Nat)
  | dir (entries : List (String × DiskNode))
  deriving Inhabited

structure Disk where
  top : List (String × DiskNode) := []
  contents : List (Nat × Bytes) := []
  /-- The locks that are held, each with the file that it is on. -/
  held : List (Nat × Nat) := []
  /-- The next number for a file or a lock. -/
  fresh : Nat := 0
  deriving Inhabited

namespace Disk

/-! ## Finding files -/

/-- Where a path leads: the names from the top down. What is above the top is the top. -/
abbrev Place := List String

def nodeAt (entries : List (String × DiskNode)) : Place → Option DiskNode
  | [] => some (.dir entries)
  | name :: rest =>
    match entries.lookup name with
    | none => none
    | some (.file n) => if rest.isEmpty then some (.file n) else none
    | some (.dir es) => nodeAt es rest

def node? (d : Disk) (place : Place) : Option DiskNode := nodeAt d.top place

/-- Follows names downwards from the directory `base`; each one that is left must be a directory. -/
def walk (d : Disk) (base : Place) : List Part → Except IoKind Place
  | [] => .ok base
  | part :: rest =>
    match d.node? base with
    | none => .error .notFound
    | some (.file _) => .error .notADirectory
    | some (.dir _) =>
      match part with
      | .name s => walk d (base ++ [s]) rest
      | .up => walk d base.dropLast rest
      | _ => walk d base rest

/-- Whether the last segment of a path is a dot. -/
def endsInDot (p : Path) : Bool :=
  match p.text.toList.reverse.dropWhile (· = '/') with
  | ['.'] => true
  | '.' :: '/' :: _ => true
  | _ => false

/-- The steps that a path asks for. A dot at the end is one of them: it asks for a directory there. -/
def steps (p : Path) : List Part := if endsInDot p then p.parts ++ [.here] else p.parts

/-- Whether a path can only be that of a directory, by its spelling. -/
def namesDir (p : Path) : Bool :=
  p.parts.isEmpty || p.parts.getLast? == some .up || p.text.endsWith "/" || endsInDot p

/-- The place of a path and what is there. The last part need not be there. -/
def locate (d : Disk) (p : Path) : Except IoKind (Place × Option DiskNode) :=
  match d.walk [] (steps p) with
  | .error e => .error e
  | .ok place =>
    match d.node? place with
    | some (.file n) =>
      if namesDir p then .error .notADirectory else .ok (place, some (.file n))
    | r => .ok (place, r)

/-! ## Changing the tree -/

def setEntry (entries : List (String × DiskNode)) (name : String) (node : DiskNode) :
    List (String × DiskNode) :=
  match entries with
  | [] => [(name, node)]
  | (n, old) :: rest =>
    if n = name then (n, node) :: rest else (n, old) :: setEntry rest name node

def change (entries : List (String × DiskNode)) (place : Place) (node : Option DiskNode) :
    List (String × DiskNode) :=
  match place with
  | [] => entries
  | [name] =>
    match node with
    | some n => setEntry entries name n
    | none => entries.filter (·.1 ≠ name)
  | name :: rest =>
    match entries.lookup name with
    | some (.dir es) => setEntry entries name (.dir (change es rest node))
    | _ => entries

def put (d : Disk) (place : Place) (node : DiskNode) : Disk :=
  { d with top := change d.top place (some node) }

def drop (d : Disk) (place : Place) : Disk := { d with top := change d.top place none }

def content (d : Disk) (file : Nat) : Bytes := (d.contents.lookup file).getD []

def setContent (d : Disk) (file : Nat) (b : Bytes) : Disk :=
  { d with contents := (file, b) :: d.contents.filter (·.1 ≠ file) }

def create (d : Disk) (place : Place) : Nat × Disk :=
  (d.fresh, { d.put place (.file d.fresh) with fresh := d.fresh + 1 })

/-! ## Operations -/

def fail {α : Type} (k : IoKind) : Except IoError α := .error ⟨k, ""⟩

def mkdir (d : Disk) (parts : List Part) : Except IoKind Disk :=
  match d.walk [] parts with
  | .error e => .error e
  | .ok place =>
    match d.node? place with
    | some _ => .error .alreadyExists
    | none => .ok (d.put place (.dir []))

def isDirAt (d : Disk) (parts : List Part) : Bool :=
  match d.walk [] parts with
  | .ok place =>
    match d.node? place with
    | some (.dir _) => true
    | _ => false
  | .error _ => false

/-- Creates a directory, and those above it if it has to. The steps are those to the directory, and the
parts those of the directories above it, from the nearest one up. -/
def mkdirs (d : Disk) (steps : List Part) : List Part → Except IoKind Unit × Disk
  | [] => finish d
  | part :: above =>
    match d.mkdir steps with
    | .error .notFound =>
      match mkdirs d (part :: above).reverse above with
      | (.error e, d) => (.error e, d)
      | (.ok _, d) => finish d
    | _ => finish d
where
  finish (d : Disk) : Except IoKind Unit × Disk :=
    match d.mkdir steps with
    | .ok d => (.ok (), d)
    | .error e => if d.isDirAt steps then (.ok (), d) else (.error e, d)

def createDirs (d : Disk) (p : Path) : Except IoError Unit × Disk :=
  let (r, d) := d.mkdirs (steps p) p.parts.dropLast.reverse
  (r.mapError fun k => ⟨k, ""⟩, d)

/-- Opens a file for writing and creates it if it is not there. -/
def openFile (d : Disk) (p : Path) : Except IoKind (Nat × Disk) :=
  match d.walk [] (steps p) with
  | .error e => .error e
  | .ok place =>
    if namesDir p then .error .isADirectory
    else
      match d.node? place with
      | some (.file n) => .ok (n, d)
      | some (.dir _) => .error .isADirectory
      | none => .ok (d.create place)

/-- The lock is a number of its own; it is on the file that the path leads to now. -/
def tryLock (d : Disk) (p : Path) : Except IoError (Option (Nat × Disk)) :=
  match d.openFile p with
  | .error k => fail k
  | .ok (file, d) =>
    if d.held.any (·.2 == file) then .ok none
    else .ok (some (d.fresh, { d with held := (d.fresh, file) :: d.held, fresh := d.fresh + 1 }))

def unlock (d : Disk) (lock : Nat) : Disk := { d with held := d.held.filter (·.1 ≠ lock) }

def read (d : Disk) (p : Path) : Except IoError Bytes :=
  match d.locate p with
  | .error k => fail k
  | .ok (_, none) => fail .notFound
  | .ok (_, some (.dir _)) => fail .isADirectory
  | .ok (_, some (.file n)) => .ok (d.content n)

def insertSorted (p : Path) : List Path → List Path
  | [] => [p]
  | q :: rest => if p.before q then p :: q :: rest else q :: insertSorted p rest

/-- The files right inside a directory with this extension, in order; none if it is not there. -/
def list (d : Disk) (dir : Path) (extension : String) : Except IoError (List Path) :=
  match d.locate dir with
  | .error .notFound => .ok []
  | .error k => fail k
  | .ok (_, none) => .ok []
  | .ok (_, some (.file _)) => fail .notADirectory
  | .ok (_, some (.dir entries)) =>
    let paths := entries.filterMap fun (name, n) =>
      match n with
      | .file _ => if (Path.splitName name).2 == some extension then some (dir.join name) else none
      | .dir _ => none
    .ok (paths.foldl (fun ps p => insertSorted p ps) [])

/-- The path with another extension: the one that it has is cut off first, which can leave a path without
a name; then there is nothing to put the new one on. -/
def withExtension (p : Path) (extension : String) : Path :=
  let cut : Path := ⟨String.ofList (p.text.toList.take (p.text.length - (p.extension?.getD "").length))⟩
  match cut.stem? with
  | some stem => ⟨Path.textOf (cut.parts.dropLast ++ [.name (stem ++ "." ++ extension)])⟩
  | none => cut

/-- Why no file can be renamed to a path, by its spelling alone. -/
def refusal? (p : Path) : Option IoKind :=
  if endsInDot p then some .resourceBusy
  else if p.isEmpty || p.text.endsWith "/" then some .notADirectory
  else none

/-- Writes a file beside and renames it, so that no reader sees part of it. What is beside the top is not
seen. -/
def write (d : Disk) (p : Path) (data : Bytes) : Except IoError Unit × Disk :=
  if p.parts.isEmpty || p.parts = [.here] then (fail ((refusal? p).getD .isADirectory), d)
  else
    let beside := withExtension p "partial"
    match d.openFile beside with
    | .error k => (fail k, d)
    | .ok (file, d) =>
      let d := d.setContent file data
      let undone (k : IoKind) : Except IoError Unit × Disk :=
        (fail k, match d.locate beside with
          | .ok (place, some (.file _)) => d.drop place
          | _ => d)
      match d.locate beside, d.locate p, refusal? p with
      | .error k, _, _ => undone k
      | _, .error k, _ => undone k
      | _, _, some k => undone k
      | _, .ok (_, some (.dir _)), none => undone .isADirectory
      | .ok (place, _), .ok (target, _), none =>
        if place = target then (.ok (), d) else (.ok (), (d.drop place).put target (.file file))

/-- A file that is not there is no error. -/
def remove (d : Disk) (p : Path) : Except IoError Unit × Disk :=
  match d.locate p with
  | .error .notFound => (.ok (), d)
  | .error k => (fail k, d)
  | .ok (_, none) => (.ok (), d)
  | .ok (_, some (.dir _)) => (fail .isADirectory, d)
  | .ok (place, some (.file _)) => (.ok (), d.drop place)

def has (d : Disk) (p : Path) : Bool :=
  match d.locate p with
  | .ok (_, some _) => true
  | _ => false

end Disk

instance : FileSystem Disk Nat where
  createDirs := Disk.createDirs
  tryLock := Disk.tryLock
  unlock := Disk.unlock
  list := Disk.list
  read := Disk.read
  write := Disk.write
  remove := Disk.remove
  holds := Disk.has

end Courier

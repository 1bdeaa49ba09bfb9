import Courier.Bytes
import Courier.Storage.Error

/-!
# Files in memory

Directories, files and locks are three tables over paths. Writes can be made to fail, and a crash frees all
locks.
-/

namespace Courier

structure MemoryFiles where
  dirs : List Path := []
  /-- In the order of their paths. -/
  files : List (Path × Bytes) := []
  locks : List Path := []
  failWrites : Bool := false
  deriving Inhabited

namespace MemoryFiles

def holds (paths : List Path) (p : Path) : Bool := paths.any (·.same p)

def adding (paths : List Path) (p : Path) : List Path :=
  if holds paths p then paths else paths ++ [p]

def createDirs (m : MemoryFiles) (p : Path) : MemoryFiles :=
  { m with dirs := (p.ancestors.takeWhile (!·.isEmpty)).foldl adding m.dirs }

/-- Nothing needs to be there for a path without a parent. -/
def parentMissing? (m : MemoryFiles) (p : Path) : Option IoError :=
  match p.parent? with
  | none => none
  | some q =>
    if q.isEmpty || holds m.dirs q then none
    else some ⟨.notFound, "parent directory missing: " ++ q.text⟩

def isLocked (m : MemoryFiles) (p : Path) : Bool := holds m.locks p

def tryLock (m : MemoryFiles) (p : Path) : Except IoError (Option (Path × MemoryFiles)) :=
  match m.parentMissing? p with
  | some e => .error e
  | none =>
    if m.isLocked p then .ok none else .ok (some (p, { m with locks := m.locks ++ [p] }))

/-- Frees the lock under this path, whoever holds it. -/
def unlock (m : MemoryFiles) (p : Path) : MemoryFiles :=
  { m with locks := m.locks.filter (!·.same p) }

def isIn (dir : Path) (p : Path) : Bool :=
  match p.parent? with
  | some q => q.same dir
  | none => false

/-- The files right inside a directory with this extension, in order. -/
def list (m : MemoryFiles) (dir : Path) (extension : String) : List Path :=
  (m.files.map Prod.fst).filter fun p => isIn dir p && p.extension? == some extension

def count (m : MemoryFiles) (dir : Path) : Nat := (m.files.filter (isIn dir ·.1)).length

def find? (m : MemoryFiles) (p : Path) : Option Bytes := (m.files.find? (·.1.same p)).map Prod.snd

def read (m : MemoryFiles) (p : Path) : Except IoError Bytes :=
  match m.find? p with
  | some b => .ok b
  | none => .error ⟨.notFound, p.text⟩

/-- Puts a file in its place; one that is there keeps its spelling. -/
def insert (p : Path) (data : Bytes) : List (Path × Bytes) → List (Path × Bytes)
  | [] => [(p, data)]
  | (q, old) :: rest =>
    if q.same p then (q, data) :: rest
    else if p.before q then (p, data) :: (q, old) :: rest
    else (q, old) :: insert p data rest

def write (m : MemoryFiles) (p : Path) (data : Bytes) : Except IoError MemoryFiles :=
  if m.failWrites then .error ⟨.other, "simulated write failure"⟩
  else
    match m.parentMissing? p with
    | some e => .error e
    | none => .ok { m with files := insert p data m.files }

def remove (m : MemoryFiles) (p : Path) : MemoryFiles :=
  { m with files := m.files.filter (!·.1.same p) }

def has (m : MemoryFiles) (p : Path) : Bool := (m.find? p).isSome || holds m.dirs p

/-- The holders of all locks die. -/
def crash (m : MemoryFiles) : MemoryFiles := { m with locks := [] }

end MemoryFiles

/-! ## Denied operations -/

inductive FileOp
  | mkdir
  | lock
  | list
  | read
  | remove
  deriving DecidableEq, Repr, Inhabited

def FileOp.name : FileOp → String
  | mkdir => "mkdir"
  | lock => "lock"
  | list => "list"
  | read => "read"
  | remove => "remove"

def FileOp.ofName? (s : String) : Option FileOp :=
  [mkdir, lock, list, read, remove].find? (·.name == s)

/-- Files in memory, some operations on which are denied. -/
structure Storage where
  files : MemoryFiles := {}
  denied : List FileOp := []
  deriving Inhabited

namespace Storage

def refusal? (s : Storage) (op : FileOp) : Option IoError :=
  if s.denied.contains op then
    some ⟨.permissionDenied, "injected " ++ op.name ++ " failure"⟩
  else none

def createDirs (s : Storage) (p : Path) : Except IoError Unit × Storage :=
  match s.refusal? .mkdir with
  | some e => (.error e, s)
  | none => (.ok (), { s with files := s.files.createDirs p })

def tryLock (s : Storage) (p : Path) : Except IoError (Option (Path × Storage)) :=
  match s.refusal? .lock with
  | some e => .error e
  | none =>
    match s.files.tryLock p with
    | .error e => .error e
    | .ok none => .ok none
    | .ok (some (lock, files)) => .ok (some (lock, { s with files := files }))

def unlock (s : Storage) (p : Path) : Storage := { s with files := s.files.unlock p }

def list (s : Storage) (dir : Path) (extension : String) : Except IoError (List Path) :=
  match s.refusal? .list with
  | some e => .error e
  | none => .ok (s.files.list dir extension)

def read (s : Storage) (p : Path) : Except IoError Bytes :=
  match s.refusal? .read with
  | some e => .error e
  | none => s.files.read p

def write (s : Storage) (p : Path) (data : Bytes) : Except IoError Unit × Storage :=
  match s.files.write p data with
  | .error e => (.error e, s)
  | .ok files => (.ok (), { s with files := files })

def remove (s : Storage) (p : Path) : Except IoError Unit × Storage :=
  match s.refusal? .remove with
  | some e => (.error e, s)
  | none => (.ok (), { s with files := s.files.remove p })

def has (s : Storage) (p : Path) : Bool := s.files.has p

end Storage

instance : FileSystem Storage Path where
  createDirs := Storage.createDirs
  tryLock := Storage.tryLock
  unlock := Storage.unlock
  list := Storage.list
  read := Storage.read
  write := Storage.write
  remove := Storage.remove
  holds := Storage.has

end Courier

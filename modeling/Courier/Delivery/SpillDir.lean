import Courier.Envelope.Wire
import Courier.Storage.Claim
import Courier.Storage.Memory
import Courier.Text.Word

/-!
# Spill directories

Envelopes that are not delivered yet stand in files, one each. A name is the time in milliseconds with 13
digits, a dash and a sequence number of six digits, so that names are in the order in which they were given.
After a restart the sequence goes on behind the greatest number that is found.
-/

namespace Courier

structure SpillDir where
  claim : DirClaim Path
  /-- Whether the directory is ours. -/
  enabled : Bool
  /-- How many files there may be. -/
  capacity : UInt64
  sequence : UInt64 := 0
  deriving Inhabited

/-- What became of an envelope that was to be put into a file. -/
inductive Spilled
  | written (file : Path)
  | disabled
  | full
  | failed
  deriving DecidableEq, Repr, Inhabited

def Spilled.file? : Spilled → Option Path
  | written p => some p
  | _ => none

namespace SpillDir

def extension : String := "envelope"

def modulus : UInt64 := 1000000

/-! ## Names -/

def padded (width : Nat) (n : Nat) : List Char :=
  let digits := Nat.toDigits 10 n
  List.replicate (width - digits.length) '0' ++ digits

def fileName (time : Timestamp) (sequence : UInt64) : String :=
  String.ofList (padded 13 time.millis.toNat ++ '-' :: padded 6 (sequence % modulus).toNat) ++
    "." ++ extension

/-- The number behind the first dash of a name. -/
def sequence? (p : Path) : Option UInt64 :=
  p.stem?.bind fun stem =>
    match stem.toList.dropWhile (· ≠ '-') with
    | [] => none
    | _ :: rest => Text.word? rest

def dir (s : SpillDir) : Path := s.claim.dir

def nextFile (s : SpillDir) (time : Timestamp) : Path × SpillDir :=
  (s.dir.join (fileName time s.sequence), { s with sequence := s.sequence + 1 })

/-! ## Files -/

/-- Puts an envelope into a file of its own. -/
def write (s : SpillDir) (fs : Storage) (time : Timestamp) (e : Envelope) :
    Spilled × SpillDir × Storage :=
  if !s.enabled || e.isEmpty then (.disabled, s, fs)
  else
    match fs.list s.dir extension with
    | .error _ => (.failed, s, fs)
    | .ok files =>
      if s.capacity.toNat ≤ files.length then (.full, s, fs)
      else
        -- the name is used up even if its file cannot be written
        let (file, s) := s.nextFile time
        match fs.write file e.toBytes with
        | (.ok _, fs) => (.written file, s, fs)
        | (.error _, fs) => (.failed, s, fs)

/-- A file that cannot be removed stays. -/
def remove (fs : Storage) (file : Option Path) : Storage :=
  match file with
  | some p => (fs.remove p).2
  | none => fs

/-- The envelope in a file, if there is one with items in it. -/
def load? (fs : Storage) (file : Path) : Option Envelope :=
  match fs.read file with
  | .error _ => none
  | .ok bytes =>
    match Envelope.ofBytes bytes with
    | .error _ => none
    | .ok e => if e.isEmpty then none else some e

/-- Reads the files in their order; those that hold no envelope are removed. -/
def loadAll (fs : Storage) : List Path → List (Envelope × Path) × Storage
  | [] => ([], fs)
  | file :: rest =>
    match load? fs file with
    | some e =>
      let (found, fs) := loadAll fs rest
      ((e, file) :: found, fs)
    | none => loadAll (remove fs (some file)) rest

def resumed (s : SpillDir) (files : List Path) : SpillDir :=
  match (files.filterMap sequence?).max? with
  | some last => { s with sequence := (last + 1) % modulus }
  | none => s

def recover (s : SpillDir) (fs : Storage) : List (Envelope × Path) × SpillDir × Storage :=
  match fs.list s.dir extension with
  | .error _ => ([], s, fs)
  | .ok files =>
    let (found, fs) := loadAll fs files
    (found, s.resumed files, fs)

end SpillDir

end Courier

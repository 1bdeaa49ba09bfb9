import Courier.Storage.Error
import Courier.Text.Quoted

/-!
# Claims on a cache directory

Whoever holds the lock beside the directory owns it, until the claim is given up for good.
-/

namespace Courier

/-- A claim, with the lock while it is held. -/
structure DirClaim (Lock : Type) where
  dir : Path
  lock : Option Lock := none
  disposed : Bool := false
  deriving Inhabited

namespace DirClaim

variable {σ Lock : Type} [FileSystem σ Lock]

/-- The lock stands beside the directory, whatever way that is spelled. -/
def lockPath (dir : Path) : Path := ⟨dir.normal.text ++ ".lock"⟩

def isAcquired (c : DirClaim Lock) : Bool := c.lock.isSome

/-- Whether the directory is owned afterwards. Contention and a claim that was given up are no errors. -/
def acquire (c : DirClaim Lock) (fs : σ) : Except CacheError Bool × DirClaim Lock × σ :=
  if c.disposed then (.ok false, c, fs)
  else if c.isAcquired then (.ok true, c, fs)
  else
    match FileSystem.createDirs fs c.dir with
    | (.error e, fs) => (.error ⟨c.dir.text, e⟩, c, fs)
    | (.ok _, fs) =>
      match FileSystem.tryLock fs (lockPath c.dir) with
      | .error e => (.error ⟨(lockPath c.dir).text, e⟩, c, fs)
      | .ok none => (.ok false, c, fs)
      | .ok (some (lock, fs)) => (.ok true, { c with lock := some lock }, fs)

/-- Frees the lock if it is held. -/
def dispose (c : DirClaim Lock) (fs : σ) : DirClaim Lock × σ :=
  ({ c with lock := none, disposed := true },
    match c.lock with
    | some lock => FileSystem.unlock fs lock
    | none => fs)

def text (c : DirClaim Lock) : String :=
  "CacheCoordinator \x7b cache_dir: " ++ Text.quoted c.dir.text ++ ", lock_path: " ++
    Text.quoted (lockPath c.dir).text ++ " \x7d"

end DirClaim

def lockText (p : Path) : String := "FileLock \x7b path: " ++ Text.quoted p.text ++ " \x7d"

end Courier

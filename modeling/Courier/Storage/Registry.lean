import Courier.Storage.Claim

/-!
# Holders by name

Files together with what is held on them, a lock or a claim, under the name of its holder.
-/

namespace Courier

structure Registry (σ α : Type) where
  files : σ
  held : List (String × α) := []

namespace Registry

variable {σ α Lock : Type}

def find? (r : Registry σ α) (name : String) : Option α := r.held.lookup name

/-- Forgets what somebody holds, without letting it go. -/
def forget (r : Registry σ α) (name : String) : Registry σ α :=
  { r with held := r.held.filter (·.1 != name) }

def put (r : Registry σ α) (name : String) (x : α) : Registry σ α :=
  { r with held := (name, x) :: (r.forget name).held }

def onFiles {β : Type} (r : Registry σ α) (f : σ → β × σ) : β × Registry σ α :=
  let (x, files) := f r.files
  (x, { r with files := files })

/-! ## Locks -/

section

variable [FileSystem σ Lock]

def unlock (r : Registry σ Lock) (name : String) : Registry σ Lock :=
  match r.find? name with
  | some lock => { r.forget name with files := FileSystem.unlock r.files lock }
  | none => r

/-- Whether the lock could be taken; what was under the name before is let go after that. -/
def lock (r : Registry σ Lock) (name : String) (p : Path) : Except IoError Bool × Registry σ Lock :=
  match FileSystem.tryLock r.files p with
  | .error e => (.error e, r)
  | .ok none => (.ok false, r)
  | .ok (some (lock, files)) => (.ok true, ({ r with files := files }.unlock name).put name lock)

/-! ## Claims -/

/-- Lets a claim go, if there is one under this name. -/
def dropClaim (r : Registry σ (DirClaim Lock)) (name : String) : Registry σ (DirClaim Lock) :=
  match r.find? name with
  | some c => { r.forget name with files := (c.dispose r.files).2 }
  | none => r

/-- Enters a claim that is not acquired yet; what was under the name before is let go. -/
def claim (r : Registry σ (DirClaim Lock)) (name : String) (dir : Path) :
    Registry σ (DirClaim Lock) :=
  let c : DirClaim Lock := { dir := dir }
  (r.dropClaim name).put name c

/-- `none` if there is no claim under this name. -/
def acquire (r : Registry σ (DirClaim Lock)) (name : String) :
    Option (Except CacheError Bool) × Registry σ (DirClaim Lock) :=
  match r.find? name with
  | none => (none, r)
  | some c =>
    let (result, c, files) := c.acquire r.files
    (some result, { r with files := files }.put name c)

def dispose (r : Registry σ (DirClaim Lock)) (name : String) : Registry σ (DirClaim Lock) :=
  match r.find? name with
  | none => r
  | some c =>
    let (c, files) := c.dispose r.files
    { r with files := files }.put name c

end

end Registry

end Courier

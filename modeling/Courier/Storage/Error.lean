import Courier.Bytes
import Courier.Storage.Path

/-!
# Failures of storage
-/

namespace Courier

inductive IoKind
  | notFound
  | permissionDenied
  | alreadyExists
  | notADirectory
  | isADirectory
  | resourceBusy
  | other
  deriving DecidableEq, Repr, Inhabited

structure IoError where
  kind : IoKind
  message : String
  deriving DecidableEq, Repr, Inhabited

/-- A failure in the cache directory, and where. -/
structure CacheError where
  path : String
  cause : IoError
  deriving DecidableEq, Repr, Inhabited

def CacheError.message (e : CacheError) : String :=
  "cache I/O error at " ++ e.path ++ ": " ++ e.cause.message

/-- What a file system does for a cache directory. -/
class FileSystem (σ : Type) (Lock : outParam Type) where
  createDirs : σ → Path → Except IoError Unit × σ
  /-- `none` if the lock is held. -/
  tryLock : σ → Path → Except IoError (Option (Lock × σ))
  unlock : σ → Lock → σ
  /-- The files right inside a directory with this extension, in order. -/
  list : σ → Path → String → Except IoError (List Path)
  read : σ → Path → Except IoError Bytes
  write : σ → Path → Bytes → Except IoError Unit × σ
  /-- A file that is not there is no error. -/
  remove : σ → Path → Except IoError Unit × σ
  /-- Whether a file or a directory is there. -/
  holds : σ → Path → Bool

end Courier

import Courier.Settings.Error
import Courier.Storage.Error

/-!
# Failures of delivery
-/

namespace Courier

inductive DeliveryError
  /-- Nothing is taken after a shutdown has begun. -/
  | disposed
  | settings (e : SettingsError)
  | cache (e : CacheError)
  deriving DecidableEq, Repr, Inhabited

/-- The text of an error that this library words. -/
def DeliveryError.message? : DeliveryError → Option String
  | disposed => some "worker is disposed"
  | settings e => e.message?
  | cache e => some e.message

end Courier

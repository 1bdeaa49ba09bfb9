import Courier.Text.Blank

/-!
# Logging settings

Taken from two variables of the environment, either of which may be unset.
-/

namespace Courier

inductive LogFormat
  | text
  | json
  deriving DecidableEq, Repr, Inhabited

structure LogSettings where
  filter : String
  format : LogFormat
  deriving DecidableEq, Repr, Inhabited

namespace LogSettings

def defaultFilter : String := "telemetry_delivery=info"

/-- `json` in any case and between blanks; anything else is text. -/
def formatOf (s : String) : LogFormat :=
  if (Text.trim s.toList).map Char.toLower = ['j', 's', 'o', 'n'] then .json else .text

/-- A blank level counts as unset. -/
def ofEnvironment (level format : Option String) : LogSettings where
  filter :=
    match level with
    | some s => if s.toList.all Text.isBlank then defaultFilter else s
    | none => defaultFilter
  format :=
    match format with
    | some s => formatOf s
    | none => .text

end LogSettings

end Courier

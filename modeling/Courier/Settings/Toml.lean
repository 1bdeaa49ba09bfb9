import Courier.Settings.Text
import Courier.Toml.Reader

/-!
# Settings files
-/

namespace Courier.Settings

/-- Reads a settings file in TOML; settings that are not valid are refused. -/
def ofToml (s : String) : Except SettingsError Settings :=
  match (Toml.ofString? s).bind (ofDocument? .ignored) with
  | none => .error .parse
  | some settings =>
    match settings.validate with
    | .error e => .error e
    | .ok _ => .ok settings

end Courier.Settings

import Migrations.Home.Tree
import Migrations.Pattern.Reader
import Migrations.Yaml.Node

/-!
# Faults of Settings

What can be wrong with the settings of an environment, and what users read about it.
-/

namespace Migrations

inductive SettingFault where
  | required (field hint : String)
  | invalid (field value expected : String)
  | badPattern (field value : String) (fault : PatternFault)
  | unreadable (path : Path) (fault : FileFault)
  | document (fault : Yaml.Fault)
  | noHookFolder (dir : Path)
  | noHookFile (path : Path)
  deriving DecidableEq, Repr

namespace SettingFault

def message : SettingFault → String
  | required field hint => s!"Missing required field: {field}. {hint}"
  | invalid field value expected =>
    s!"Invalid value for field '{field}': '{value}'. Expected: {expected}"
  | badPattern field value fault =>
    let reason := fault.message
    s!"Invalid value for field '{field}': '{value}'. " ++
      s!"Expected: a valid regular expression ({reason})"
  | unreadable path fault =>
    let reason := fault.message
    s!"File system error: Failed to read {path}: {reason}"
  | document fault =>
    let reason := fault.message
    s!"YAML error: {reason}"
  | noHookFolder dir => s!"File system error: Hooks directory '{dir}' does not exist"
  | noHookFile path => s!"File system error: Hook script '{path}' does not exist"

end SettingFault

end Migrations

import Migrations.Settings.Document
import Migrations.Settings.Override

/-!
# Where Settings Come From

Settings are loaded from the file of their environment, if there is one, then overridden by the
variables of the process, and then checked.  Afterwards each setting that can be overridden has a
source: the variable that is set, or else the file if one was loaded, or else its default.
-/

namespace Migrations

/-- Where a setting has its value from. -/
inductive SettingSource where
  | default (text : String)
  | file (path : Path)
  | process (name : String)
  deriving DecidableEq, Repr

namespace SettingSource

def kind : SettingSource → String
  | default _ => "default"
  | file _ => "file"
  | process _ => "env"

instance : ToString SettingSource :=
  ⟨fun
    | default text => s!"default ({text})"
    | file path => s!"{path}"
    | process name => s!"${name}"⟩

end SettingSource

/-- Settings with the file that they were loaded from. -/
structure LoadedSettings where
  settings : Settings
  file? : Option Path
  deriving DecidableEq, Repr

namespace LoadedSettings

def ofProcess (process : Variables) : Except SettingFault LoadedSettings :=
  (Settings.ofProcess process).map fun settings => ⟨settings, none⟩

/-- The settings of a file, before any override. -/
def ofFile (home : Home) (path : Path) : Except SettingFault LoadedSettings :=
  match home.readText path with
  | .error fault => .error (.unreadable path fault)
  | .ok text => (Settings.ofText text).map fun settings => ⟨settings, some path⟩

/-- The settings of an environment: its file or else the defaults, with the overrides of the
process, checked. -/
def load (home : Home) (process : Variables) (layout : Layout) (environment : Environment) :
    Except SettingFault LoadedSettings := do
  let file := layout.environmentFile environment
  let loaded ← if home.hasPath file then ofFile home file else .ok ⟨{}, none⟩
  let settings ← loaded.settings.overridden process
  settings.checkFor environment
  return ⟨settings, loaded.file?⟩

/-- The source of one setting. -/
def source (loaded : LoadedSettings) (process : Variables) (which : Settings.Overridable) :
    SettingSource :=
  if (process.get? which.variableName).isSome then .process which.variableName
  else match loaded.file? with
    | some path => .file path
    | none => .default which.defaultText

def sources (loaded : LoadedSettings) (process : Variables) : List (String × SettingSource) :=
  Settings.Overridable.all.map fun which => (which.field, loaded.source process which)

end LoadedSettings

end Migrations

import Migrations.Settings.Check

/-!
# Overrides

Variables of the process that are stronger than the settings file.  Each of them overrides one
setting; they are read in a fixed order, and the first value that cannot be read is the fault.
-/

namespace Migrations

namespace Settings

/-- The settings that process variables override. -/
inductive Overridable where
  | databaseUrl
  | changelogTable
  | delimiter
  | fullLineDelimiter
  | sendFullScript
  | transactionMode
  | malformedScripts
  | filenameFilter
  | lockKey
  deriving DecidableEq, Repr

namespace Overridable

/-- The settings in the order in which they are overridden. -/
def all : List Overridable :=
  [databaseUrl, changelogTable, delimiter, fullLineDelimiter, sendFullScript, transactionMode,
   malformedScripts, filenameFilter, lockKey]

def field : Overridable → String
  | databaseUrl => "database_url"
  | changelogTable => "changelog_table"
  | delimiter => "delimiter"
  | fullLineDelimiter => "full_line_delimiter"
  | sendFullScript => "send_full_script"
  | transactionMode => "transaction_mode"
  | malformedScripts => "malformed_scripts"
  | filenameFilter => "filename_filter"
  | lockKey => "lock_key"

def variableName : Overridable → String
  | databaseUrl => "DATABASE_URL"
  | changelogTable => "SHIFT_CHANGELOG_TABLE"
  | delimiter => "SHIFT_DELIMITER"
  | fullLineDelimiter => "SHIFT_FULL_LINE_DELIMITER"
  | sendFullScript => "SHIFT_SEND_FULL_SCRIPT"
  | transactionMode => "SHIFT_TRANSACTION_MODE"
  | malformedScripts => "SHIFT_MALFORMED_SCRIPTS"
  | filenameFilter => "SHIFT_FILENAME_FILTER"
  | lockKey => "SHIFT_LOCK_KEY"

/-- The default of the setting as users are shown it. -/
def defaultText : Overridable → String
  | databaseUrl => "none"
  | changelogTable => "changelog"
  | delimiter => ";"
  | fullLineDelimiter => "false"
  | sendFullScript => "false"
  | transactionMode => "per_script"
  | malformedScripts => "fail"
  | filenameFilter => "none"
  | lockKey => "default"

end Overridable

def truth (field text : String) : Except SettingFault Bool :=
  let name := Text.lower text
  if name = "true" ∨ name = "1" ∨ name = "yes" ∨ name = "on" then .ok true
  else if name = "false" ∨ name = "0" ∨ name = "no" ∨ name = "off" then .ok false
  else .error (.invalid field text "true or false")

/-- The settings with one of them taken from the text of its variable. -/
def override (settings : Settings) (which : Overridable) (text : String) :
    Except SettingFault Settings :=
  match which with
  | .databaseUrl => .ok { settings with databaseUrl := some text }
  | .changelogTable => .ok { settings with changelogTable := text }
  | .delimiter => .ok { settings with delimiter := text }
  | .fullLineDelimiter =>
    (truth which.variableName text).map fun value => { settings with fullLineDelimiter := value }
  | .sendFullScript =>
    (truth which.variableName text).map fun value => { settings with sendFullScript := value }
  | .transactionMode =>
    (TransactionMode.ofText text).map fun value => { settings with transactionMode := value }
  | .malformedScripts =>
    (MalformedPolicy.ofText text).map fun value => { settings with malformedScripts := value }
  | .filenameFilter => .ok { settings with filenameFilter := some text }
  | .lockKey =>
    match Text.int64? text.toList with
    | some key => .ok { settings with lockKey := key }
    | none => .error (.invalid which.variableName text "a 64-bit signed integer")

/-- The settings with the given ones overridden by the variables that are set. -/
def overrideEach (process : Variables) : List Overridable → Settings →
    Except SettingFault Settings
  | [], settings => .ok settings
  | which :: rest, settings =>
    match process.get? which.variableName with
    | none => overrideEach process rest settings
    | some text =>
      match settings.override which text with
      | .ok settings => overrideEach process rest settings
      | .error fault => .error fault

/-- The settings with all overrides of the process. -/
def overridden (settings : Settings) (process : Variables) : Except SettingFault Settings :=
  overrideEach process Overridable.all settings

/-- The settings that the variables of the process give alone. -/
def ofProcess (process : Variables) : Except SettingFault Settings := do
  let settings ← ({} : Settings).overridden process
  settings.check
  return settings

end Settings

/-- The environment that the process names; development unless it names one. -/
def Environment.ofProcess (process : Variables) : Except SettingFault Environment :=
  match process.get? "SHIFT_ENV" with
  | some text => Environment.ofText text
  | none => .ok .development

end Migrations

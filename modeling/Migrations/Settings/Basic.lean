import Migrations.Hook.Slot
import Migrations.Script.Placeholder
import Migrations.Script.Statement
import Migrations.Settings.Layout

/-!
# Settings

The settings of one environment, with their defaults, and the names of the values that some of them
choose from.
-/

namespace Migrations

/-! ## Choices -/

/-- Where transactions begin and end during a run. -/
inductive TransactionMode where
  /-- Every script is a transaction of its own, together with its ledger row. -/
  | perScript
  /-- The whole plan is one transaction. -/
  | perPlan
  deriving DecidableEq, Repr, Inhabited

namespace TransactionMode

instance : ToString TransactionMode := ⟨fun | perScript => "per_script" | perPlan => "per_plan"⟩

def ofName? (name : String) : Option TransactionMode :=
  [perScript, perPlan].find? (fun mode => toString mode == name)

def ofText (text : String) : Except SettingFault TransactionMode :=
  let name := Text.lower text
  if name = "per_script" ∨ name = "script" then .ok .perScript
  else if name = "per_plan" ∨ name = "plan" then .ok .perPlan
  else .error (.invalid "transaction_mode" text "per_script or per_plan")

end TransactionMode

/-- What happens to script files that do not follow the naming rules. -/
inductive MalformedPolicy where
  /-- One of them is a failure. -/
  | fail
  /-- They are left out. -/
  | skip
  deriving DecidableEq, Repr, Inhabited

namespace MalformedPolicy

instance : ToString MalformedPolicy := ⟨fun | fail => "fail" | skip => "skip"⟩

def ofName? (name : String) : Option MalformedPolicy :=
  [fail, skip].find? (fun policy => toString policy == name)

def ofText (text : String) : Except SettingFault MalformedPolicy :=
  let name := Text.lower text
  if name = "fail" then .ok .fail
  else if name = "skip" then .ok .skip
  else .error (.invalid "malformed_scripts" text "fail or skip")

end MalformedPolicy

/-! ## Hook settings -/

/-- The hooks of an environment as they are written in its settings. -/
structure HookSettings where
  entries : List (HookSlot × String) := []
  deriving DecidableEq, Repr, Inhabited

namespace HookSettings

def get? (hooks : HookSettings) (slot : HookSlot) : Option String :=
  (hooks.entries.find? (fun entry => entry.1 == slot)).map Prod.snd

def set (hooks : HookSettings) (slot : HookSlot) (setting : String) : HookSettings :=
  ⟨(slot, setting) :: hooks.entries.filter (fun entry => entry.1 ≠ slot)⟩

/-- The slots that are set, in their usual order. -/
def configured (hooks : HookSettings) : List (HookSlot × String) :=
  HookSlot.all.filterMap fun slot => (hooks.get? slot).map fun setting => (slot, setting)

end HookSettings

/-! ## Settings -/

/-- The settings of an environment. -/
structure Settings where
  databaseUrl : Option String := none
  /-- The name of the ledger table. -/
  changelogTable : String := "changelog"
  delimiter : String := ";"
  /-- Whether the delimiter has to fill a line. -/
  fullLineDelimiter : Bool := false
  /-- Whether scripts are sent as one statement. -/
  sendFullScript : Bool := false
  transactionMode : TransactionMode := .perScript
  /-- What happens to misnamed script files. -/
  malformedScripts : MalformedPolicy := .fail
  /-- A pattern that the names of script files have to match. -/
  filenameFilter : Option String := none
  /-- Zeros that say how wide ids are; without it ids are made from the clock. -/
  idPattern : Option String := none
  /-- A file to start new scripts from. -/
  newTemplate : Option String := none
  /-- The key of the run lock. -/
  lockKey : Int64 := 8316012600700528999
  /-- The variables that scripts and templates can name. -/
  vars : Variables := {}
  hooks : HookSettings := {}
  deriving DecidableEq, Repr, Inhabited

namespace Settings

/-- How the statements of scripts are found under these settings. -/
def statementRules (settings : Settings) : StatementRules where
  delimiter := settings.delimiter
  fullLine := settings.fullLineDelimiter
  whole := settings.sendFullScript

end Settings

end Migrations

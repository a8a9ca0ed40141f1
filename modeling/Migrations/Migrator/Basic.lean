import Migrations.Hook.Setting
import Migrations.Run.Runner
import Migrations.RunLock
import Migrations.Script.Folder
import Migrations.Status
import Migrations.Text.Quote

/-!
# Migrators

A migrator puts the settings of one environment, its scripts and its hooks together.  What changes
the database runs under the run lock of the settings.
-/

namespace Migrations

structure Migrator where
  layout : Layout
  settings : Settings
  folder : ScriptFolder
  hooks : Hooks

namespace Migrator

/-! ## Making migrators -/

def make (home : Home) (layout : Layout) (settings : Settings) : Except Failure Migrator := do
  let folder ← ScriptFolder.ofSettings layout.scripts settings
  match Hooks.ofSettings home layout settings with
  | .error fault => .error (.setting fault)
  | .ok hooks => .ok ⟨layout, settings, folder, hooks⟩

def connect (home : Home) (layout : Layout) (settings : Settings) :
    Except Failure (DatabaseKind × Migrator) :=
  match settings.databaseUrl with
  | none => .error (.setting (.required "database_url" "Set database_url or DATABASE_URL"))
  | some url =>
    match DatabaseKind.ofUrl url with
    | .error fault => .error (.argument (.url fault))
    | .ok kind => (make home layout settings).map fun migrator => (kind, migrator)

def ledger (migrator : Migrator) : Ledger := ⟨migrator.settings.changelogTable⟩

def describeLayout (layout : Layout) : String :=
  let base := Text.quoted layout.base.text
  let environments := Text.quoted layout.environments.text
  let scripts := Text.quoted layout.scripts.text
  let hooks := Text.quoted layout.hooks.text
  s!"MigrationPaths \x7b base: {base}, env: {environments}, scripts: {scripts}, " ++
    s!"hooks: {hooks} \x7d"

/-- The migrator over a database in memory in one line. -/
def describe (migrator : Migrator) : String :=
  let layout := describeLayout migrator.layout
  let table := Text.quoted migrator.settings.changelogTable
  let slots := migrator.hooks.slots.map HookSlot.name
  let names := (slots.mergeSort (fun a b => decide (a ≤ b))).map Text.quoted
  let hooks := ", ".intercalate names
  let hookLayout := describeLayout migrator.hooks.layout
  s!"Migrator \x7b paths: {layout}, backend: Memory, changelog: {table}, " ++
    s!"hooks: HookDispatcher \x7b hooks: [{hooks}], paths: {hookLayout} \x7d \x7d"

/-! ## The run lock -/

/-- Does work under the lock of the settings. -/
def underLock {α : Type} (migrator : Migrator) (work : Attempt Failure α) : Attempt Failure α :=
  RunLock.holding migrator.settings.lockKey work

/-! ## Looking -/

def catalog (migrator : Migrator) : Attempt Failure Catalog := Access.files migrator.folder.scan

/-- The plan that follows from the scripts and the ledger. -/
def planBy (migrator : Migrator)
    (plan : Catalog → Home → List Change → Except Failure Plan) : Attempt Failure Plan := do
  let catalog ← migrator.catalog
  let changes ← migrator.ledger.changes
  Access.files fun home => plan catalog home changes

def plan (migrator : Migrator) (direction : Direction) (target : Target) : Attempt Failure Plan :=
  migrator.planBy fun catalog home changes => Plan.make catalog home changes direction target

/-- What a run upwards would execute. -/
def pending (migrator : Migrator) : Attempt Failure Plan := migrator.plan .up .latest

/-- The state of all changes. -/
def status (migrator : Migrator) : Attempt Failure Status := do
  let catalog ← migrator.catalog
  return Status.merge catalog (← migrator.ledger.changes)

/-! ## Running -/

/-- What runs under the settings need, with the text of the abort script. -/
def runner (migrator : Migrator) (onAbort : Option String) : Runner where
  ledger := migrator.ledger
  hooks := migrator.hooks
  rules := migrator.settings.statementRules
  mode := migrator.settings.transactionMode
  onAbort := onAbort

/-- Executes a plan without the lock, and reports on it even when the run fails. -/
def execute (migrator : Migrator) (plan : Plan) :
    Attempt Failure (Report × Except Failure Unit) := do
  let onAbort ← Access.files migrator.folder.onAbort?
  (migrator.runner onAbort).execute plan

/-- Executes a plan without the lock. -/
def runPlan (migrator : Migrator) (plan : Plan) : Attempt Failure Report := do
  let onAbort ← Access.files migrator.folder.onAbort?
  (migrator.runner onAbort).run plan

/-- Plans a run and executes it without the lock. -/
def runTarget (migrator : Migrator) (direction : Direction) (target : Target) :
    Attempt Failure Report := do
  migrator.runPlan (← migrator.plan direction target)

def up (migrator : Migrator) (target : Target) : Attempt Failure Report :=
  migrator.underLock (migrator.runTarget .up target)

def down (migrator : Migrator) (target : Target) : Attempt Failure Report :=
  migrator.underLock (migrator.runTarget .down target)

/-- Plans the run to a version and executes it without the lock. -/
def runVersion (migrator : Migrator) (id : ChangeId) : Attempt Failure Report := do
  let catalog ← migrator.catalog
  if !catalog.contains id then throw (.unknownVersion id)
  let changes ← migrator.ledger.changes
  let plan ← Access.files fun home => Plan.toVersion catalog home changes id
  migrator.runPlan plan

/-- Applies or undoes changes until the one with the id is the latest applied one. -/
def version (migrator : Migrator) (id : ChangeId) : Attempt Failure Report :=
  migrator.underLock (migrator.runVersion id)

end Migrator

end Migrations

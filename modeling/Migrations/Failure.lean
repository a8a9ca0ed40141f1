import Migrations.Database.Kind
import Migrations.Database.State
import Migrations.Hook.Slot
import Migrations.Script.FileName
import Migrations.Settings.Fault

/-!
# Failures

Everything that can make an operation on migrations fail, and what users read about it.  A failure
knows the change that it belongs to, if it belongs to one.
-/

namespace Migrations

/-! ## Causes -/

inductive LedgerAction where
  | lookFor
  | create
  | read
  | write
  deriving DecidableEq, Repr

instance : ToString LedgerAction :=
  ⟨fun
    | .lookFor => "check for"
    | .create => "create"
    | .read => "read"
    | .write => "write"⟩

/-- Why the ledger could not be used. -/
inductive LedgerFault where
  | refused (action : LedgerAction) (table : String) (fault : DatabaseFault)
  | other (reason : String)
  deriving DecidableEq, Repr

def LedgerFault.reason : LedgerFault → String
  | refused action table fault =>
    let cause := fault.message
    s!"Failed to {action} changelog '{table}': {cause}"
  | other reason => reason

/-- Why a hook failed. -/
inductive HookFault where
  /-- The hook does not agree with the operation. -/
  | rejected (reason : String)
  | notFound (path : Path)
  | refused (fault : DatabaseFault)
  /-- The hook has statements but no transaction to run them in. -/
  | noTransaction (name : String)
  /-- Something about the statements of the hook, in other words. -/
  | statement (reason : String)
  | file (fault : FileFault)
  deriving DecidableEq, Repr

def HookFault.reason : HookFault → String
  | rejected reason => reason
  | notFound path => s!"Hook script not found: {path}"
  | refused fault => fault.message
  | noTransaction name => s!"SQL hook '{name}' can only run inside a migration transaction"
  | statement reason => reason
  | file fault =>
    let cause := fault.message
    s!"IO error: {cause}"

/-- What is wrong with a request. -/
inductive ArgumentFault where
  | noSteps
  | noScriptFolder (dir : Path)
  | badFilter (filter : String) (fault : PatternFault)
  /-- A range of scripts that starts where it ends. -/
  | emptyRange
  | noDescription
  /-- A description that would lead to another directory. -/
  | separators (description : String)
  /-- There is no id after the greatest one. -/
  | noIdAfter (id : ChangeId)
  /-- The time cannot be written as an id. -/
  | badStamp (stamp : String)
  /-- The template for new scripts is not there. -/
  | noTemplate (path : Path)
  /-- A new home in a directory that is in use. -/
  | notEmpty (dir : Path)
  | url (fault : UrlFault)
  | unknownSlot (name : String)
  | other (reason : String)
  deriving DecidableEq, Repr

def ArgumentFault.reason : ArgumentFault → String
  | noSteps => "The number of steps must be greater than zero"
  | noScriptFolder dir => s!"Scripts directory '{dir}' does not exist"
  | badFilter filter fault =>
    let cause := fault.message
    s!"invalid filename filter '{filter}': {cause}"
  | emptyRange => "The script range needs two different versions; use 0 to include the first one"
  | noDescription => "A description is required for a new migration"
  | separators description => s!"Description '{description}' must not contain path separators"
  | noIdAfter id => s!"No id available after {id}"
  | badStamp stamp => s!"Invalid timestamp id {stamp}"
  | noTemplate path => s!"Template file '{path}' does not exist"
  | notEmpty dir => s!"Directory '{dir}' must be empty (dotfiles are allowed)"
  | url fault => fault.message
  | unknownSlot name => HookSlot.rejection name
  | other reason => reason

/-! ## Failures -/

/-- Why an operation failed. -/
inductive Failure where
  /-- A script file that does not follow the rules. -/
  | malformed (filename : String) (fault : ScriptFault)
  /-- The ledger could not be read or written. -/
  | persistence (fault : LedgerFault)
  /-- A statement of a change failed. -/
  | execution (id : ChangeId) (cause : Failure)
  | irreversible (id : ChangeId) (filename : String)
  /-- A hook failed, perhaps while it ran for a change. -/
  | hook (name : String) (phase : HookPhase) (id : Option ChangeId) (fault : HookFault)
  | concurrent (key : Int64)
  /-- An applied change that is to be undone has no script. -/
  | missingScript (id : ChangeId) (description : String)
  /-- No script has the version. -/
  | unknownVersion (id : ChangeId)
  /-- The request makes no sense. -/
  | argument (fault : ArgumentFault)
  | database (fault : DatabaseFault)
  | file (fault : FileFault)
  | setting (fault : SettingFault)
  deriving DecidableEq, Repr

namespace Failure

def message : Failure → String
  | malformed filename fault =>
    let reason := fault.reason
    s!"Malformed migration script '{filename}': {reason}"
  | persistence fault =>
    let reason := fault.reason
    s!"Changelog persistence failed: {reason}"
  | execution id cause =>
    let cause := cause.message
    s!"Migration {id} failed: {cause}"
  | irreversible id filename =>
    s!"Migration {id} ({filename}) cannot be undone: it has no undo section"
  | hook name phase _ fault =>
    let reason := fault.reason
    s!"Hook '{name}' failed during {phase}: {reason}"
  | concurrent key =>
    let key := key.toInt
    s!"Another migration run holds the lock (key {key})"
  | missingScript id description =>
    s!"Migration script for applied change {id} ('{description}') is missing"
  | unknownVersion id => s!"No migration script exists for version {id}"
  | argument fault =>
    let reason := fault.reason
    s!"Invalid argument: {reason}"
  | database fault => fault.message
  | file fault =>
    let cause := fault.message
    s!"IO error: {cause}"
  | setting fault => fault.message

/-- The change that the failure belongs to. -/
def changeId? : Failure → Option ChangeId
  | execution id _ => some id
  | irreversible id _ => some id
  | hook _ _ id _ => id
  | missingScript id _ => some id
  | unknownVersion id => some id
  | _ => none

/-- The failure of a change while it was executed.  The failures of hooks and of changes that cannot
be undone stay what they are, and so do those that already belong to an execution. -/
def executing (id : ChangeId) : Failure → Failure
  | hook name phase of fault => hook name phase of fault
  | irreversible of filename => irreversible of filename
  | execution of cause => execution of cause
  | cause => execution id cause

end Failure

end Migrations

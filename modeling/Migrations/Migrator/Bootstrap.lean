import Migrations.Migrator.Basic

/-!
# Bootstrapping

A fresh database, one without a ledger, can be prepared by the bootstrap script.  Its statements run
in one transaction, and none of them is recorded.
-/

namespace Migrations

/-- What bootstrapping did. -/
inductive Bootstrap where
  /-- The script ran with so many statements. -/
  | applied (statements : Nat)
  | ledgerExists
  | noScript
  deriving DecidableEq, Repr

namespace Migrator

def runBootstrap (migrator : Migrator) (force : Bool) : Attempt Failure Bootstrap := do
  if !force then
    if ← migrator.ledger.isThere then return .ledgerExists
  match ← Access.files migrator.folder.bootstrap? with
  | none => return .noScript
  | some text =>
    let statements := migrator.settings.statementRules.statements text
    (Access.inTransaction fun tx => do
      return (← Access.executeAll tx statements, ())).adapt Failure.database
    return .applied statements.length

/-- Runs the bootstrap script, unless there is a ledger and nothing forces it. -/
def bootstrap (migrator : Migrator) (force : Bool) : Attempt Failure Bootstrap :=
  migrator.underLock (migrator.runBootstrap force)

end Migrator

end Migrations

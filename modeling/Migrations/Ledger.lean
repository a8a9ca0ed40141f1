import Migrations.Failure
import Migrations.Procedure.Access

/-!
# The Ledger

The table that records which changes are applied.  Reading it goes straight to the database; a
table that is not there has no rows.  Writing it belongs to the transaction of the change that is
recorded, so that a row is committed or forgotten together with the statements of its change.
-/

namespace Migrations

structure Ledger where
  table : String
  deriving DecidableEq, Repr

namespace Ledger

variable {α : Type}

/-- The attempt, whose refusal counts as a failure of the ledger. -/
def guarded (ledger : Ledger) (action : LedgerAction) (attempt : Attempt DatabaseFault α) :
    Attempt Failure α :=
  attempt.adapt fun fault => .persistence (.refused action ledger.table fault)

def isThere (ledger : Ledger) : Attempt Failure Bool :=
  ledger.guarded .lookFor (Access.hasTable ledger.table)

/-- Creates the ledger's table unless it is there. -/
def ensure (ledger : Ledger) : Attempt Failure Unit := do
  if ← ledger.isThere then return
  Access.createTable ledger.table

def changes (ledger : Ledger) : Attempt Failure (List Change) := do
  if ← ledger.isThere then
    ledger.guarded .read (Access.select ledger.table)
  else
    return []

/-- The applied change with the greatest id. -/
def latest? (ledger : Ledger) : Attempt Failure (Option Change) :=
  List.getLast? <$> ledger.changes

def record (ledger : Ledger) (tx : Transaction) (change : Change) :
    Attempt Failure (Transaction × Change) := do
  let row := change.stamped (← Access.now)
  let tx ← ledger.guarded .write (Access.insert tx ledger.table row)
  return (tx, row)

/-- Removes the record of a change; there need not be one. -/
def remove (ledger : Ledger) (tx : Transaction) (id : ChangeId) :
    Attempt Failure Transaction := do
  let (tx, _) ← ledger.guarded .write (Access.delete tx ledger.table id)
  return tx

end Ledger

end Migrations

import Migrations.Database.State

/-!
# Transactions

A transaction collects its writes and applies them, in order, when it commits; until then the
database does not change.  Whether a row is there is asked of the committed rows and the writes of
the transaction itself.  A transaction that is given up needs no operation: its writes are forgotten
with it.
-/

namespace Migrations

/-- One thing that a transaction is going to write. -/
inductive Write where
  | statement (sql : String)
  | insert (table : String) (row : Change)
  | delete (table : String) (id : ChangeId)
  deriving DecidableEq

def Write.apply (db : Database) : Write → Database
  | statement sql => { db with log := db.log ++ [sql] }
  | insert table row => db.insertRow table row
  | delete table id => db.eraseRow table id

/-- The writes of an open transaction, in order. -/
structure Transaction where
  writes : List Write := []
  deriving DecidableEq, Inhabited

namespace Transaction

/-- Whether a row is seen after a write, when it was seen before as given. -/
def sees (table : String) (id : ChangeId) (present : Bool) : Write → Bool
  | .insert t row => if t = table ∧ row.id = id then true else present
  | .delete t deleted => if t = table ∧ deleted = id then false else present
  | .statement _ => present

/-- Whether the transaction sees a row, given whether the row is committed. -/
def visible (tx : Transaction) (committed : Bool) (table : String) (id : ChangeId) : Bool :=
  tx.writes.foldl (sees table id) committed

def add (tx : Transaction) (write : Write) : Transaction := ⟨tx.writes ++ [write]⟩

/-- Runs a statement; it fails when it contains a failing pattern. -/
def execute (tx : Transaction) (db : Database) (sql : String) :
    Except DatabaseFault Transaction :=
  match db.failing? sql with
  | some pattern => .error (.statement pattern sql)
  | none => .ok (tx.add (.statement sql))

/-- Adds a ledger row; there must not be one with its id. -/
def insert (tx : Transaction) (db : Database) (table : String) (row : Change) :
    Except DatabaseFault Transaction :=
  match db.reach table with
  | .error fault => .error fault
  | .ok rows =>
    if tx.visible (rows.contains row.id) table row.id then .error (.duplicate row.id table)
    else .ok (tx.add (.insert table row))

def delete (tx : Transaction) (db : Database) (table : String) (id : ChangeId) :
    Except DatabaseFault (Transaction × Bool) :=
  match db.reach table with
  | .error fault => .error fault
  | .ok rows => .ok (tx.add (.delete table id), tx.visible (rows.contains id) table id)

def commit (tx : Transaction) (db : Database) : Database := tx.writes.foldl Write.apply db

end Transaction

end Migrations

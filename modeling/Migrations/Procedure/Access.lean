import Migrations.Procedure.Basic

/-!
# Access to the World

The atomic steps that migrations are made of: what they ask of the database, inside and outside of
transactions, of the files and of the clock.

The database is one in memory, which begins and commits a transaction whenever it is asked.  So
`begin` and `commit` have no fault to answer with, and the exits that work in a transaction has for a
database that cannot begin or cannot commit are left out.
-/

namespace Migrations

namespace Access

open Procedure

variable {ε α : Type}

/-! ## The database -/

/-- A step on the database. -/
def database (event : Event) (f : Database → α × Database) : Procedure α :=
  act event fun world =>
    let (a, db) := f world.database
    (a, { world with database := db })

def ask (event : Event) (f : Database → Except DatabaseFault α) : Attempt DatabaseFault α :=
  ExceptT.mk (look event fun world => f world.database)

/-- Takes a lock unless it is held, and says whether it was taken. -/
def tryLock (key : Int64) : Procedure Bool := database (.tryLock key) (·.tryLock key)

/-- Gives a lock back. -/
def unlock (key : Int64) : Attempt DatabaseFault Unit :=
  ExceptT.mk (database (.unlock key) (·.unlock key))

def hasTable (name : String) : Attempt DatabaseFault Bool := ask (.hasTable name) (·.hasTable name)

/-- Creates a ledger table unless it is there. -/
def createTable (name : String) : Procedure Unit :=
  database (.createTable name) fun db => ((), db.createTable name)

def select (name : String) : Attempt DatabaseFault (List Change) :=
  ask (.select name) (·.select name)

/-! ## Transactions -/

def begin : Procedure Transaction := look .begin fun _ => {}

def execute (tx : Transaction) (sql : String) : Attempt DatabaseFault Transaction :=
  ask (.execute sql) (tx.execute · sql)

def insert (tx : Transaction) (table : String) (row : Change) :
    Attempt DatabaseFault Transaction :=
  ask (.insert table row) (tx.insert · table row)

/-- Removes a ledger row in a transaction, and says whether there was one. -/
def delete (tx : Transaction) (table : String) (id : ChangeId) :
    Attempt DatabaseFault (Transaction × Bool) :=
  ask (.delete table id) (tx.delete · table id)

def commit (tx : Transaction) : Procedure Unit :=
  database .commit fun db => ((), tx.commit db)

def rollback : Procedure Unit := mark .rollback

/-- Does work in a transaction of its own.  What it writes is committed when it succeeds and
forgotten when it fails. -/
def inTransaction (work : Transaction → Attempt ε (Transaction × α)) : Attempt ε α :=
  ExceptT.mk do
    let tx ← begin
    match ← (work tx).run with
    | .ok (tx, a) =>
      commit tx
      return .ok a
    | .error fault =>
      rollback
      return .error fault

def executeAll (tx : Transaction) : List String → Attempt DatabaseFault Transaction
  | [] => return tx
  | sql :: rest => do executeAll (← execute tx sql) rest

/-! ## Files and clock -/

def files (f : Home → Except ε α) : Attempt ε α :=
  ExceptT.mk (look .files fun world => f world.home)

/-- Changes the files, unless that fails. -/
def changeFiles (f : Home → Except ε Home) : Attempt ε Unit :=
  ExceptT.mk (act .files fun world =>
    match f world.home with
    | .ok home => (.ok (), { world with home := home })
    | .error fault => (.error fault, world))

def now : Procedure Instant :=
  act .clock fun world =>
    (world.clock world.readings, { world with readings := world.readings + 1 })

end Access

end Migrations

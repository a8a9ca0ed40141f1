import Migrations.Database.Table
import Migrations.Text.Search

/-!
# Databases

The database that migrations run against: ledger tables by name, the log of the statements that
were committed, and the run locks that are held.  Beside that state stand the circumstances under
which the database answers: the patterns that make a statement fail, whether ledger tables can be
reached, and whether locks can be released.  Every operation here is one atomic step.
-/

namespace Migrations

/-! ## Faults -/

/-- What a database can refuse. -/
inductive DatabaseFault where
  /-- The ledger table cannot be reached. -/
  | connectionLost (table : String)
  /-- The database cannot be asked for a ledger table. -/
  | connectionRefused
  | noTable (table : String)
  /-- The statement contains a failing pattern. -/
  | statement (pattern sql : String)
  | duplicate (id : ChangeId) (table : String)
  | lockStuck (key : Int64)
  /-- A refusal in other words. -/
  | other (report : String)
  deriving DecidableEq, Repr

/-- What the database says. -/
def DatabaseFault.report : DatabaseFault → String
  | connectionLost table => s!"connection lost while accessing {table}"
  | connectionRefused => "connection refused"
  | noTable table => s!"relation \"{table}\" does not exist"
  | statement pattern sql => s!"statement failed (matched '{pattern}'): {sql}"
  | duplicate id table =>
    s!"duplicate key value violates unique constraint: id {id} already in {table}"
  | lockStuck key =>
    let key := key.toInt
    s!"could not release lock {key}"
  | other report => report

def DatabaseFault.message (fault : DatabaseFault) : String :=
  let report := fault.report
  s!"Database error: {report}"

/-! ## State -/

/-- A database that migrations run against. -/
structure Database where
  /-- The ledger tables by name. -/
  tables : List (String × Table) := []
  /-- The committed statements, in order. -/
  log : List String := []
  /-- The keys of the locks that are held. -/
  locks : List Int64 := []
  /-- A statement that contains one of these texts fails. -/
  failures : List String := []
  unreachable : Bool := false
  /-- Whether locks cannot be released. -/
  lockStuck : Bool := false
  deriving DecidableEq, Inhabited

namespace Database

/-! ## Ledger tables -/

def table? (db : Database) (name : String) : Option Table :=
  (db.tables.find? (fun entry => entry.1 == name)).map Prod.snd

/-- Puts a table under a name, in its place when the name is there and else at the end. -/
def putTable (name : String) (table : Table) : List (String × Table) → List (String × Table)
  | [] => [(name, table)]
  | entry :: rest =>
    if entry.1 = name then (name, table) :: rest else entry :: putTable name table rest

def setTable (db : Database) (name : String) (table : Table) : Database :=
  { db with tables := putTable name table db.tables }

def hasTable (db : Database) (name : String) : Except DatabaseFault Bool :=
  if db.unreachable then .error .connectionRefused else .ok (db.table? name).isSome

/-- The database with a ledger table of the name. -/
def createTable (db : Database) (name : String) : Database :=
  match db.table? name with
  | some _ => db
  | none => db.setTable name .empty

/-- The ledger table of a name, when it can be reached. -/
def reach (db : Database) (name : String) : Except DatabaseFault Table :=
  if db.unreachable then .error (.connectionLost name)
  else match db.table? name with
    | some table => .ok table
    | none => .error (.noTable name)

/-- The rows of a ledger table, ascending by id. -/
def select (db : Database) (name : String) : Except DatabaseFault (List Change) :=
  (db.reach name).map Table.rows

/-- The ids that a ledger table holds, ascending; none when there is no such table. -/
def appliedIds (db : Database) (name : String) : List ChangeId :=
  ((db.table? name).getD .empty).ids

/-- The database with a row in a ledger table, which is created when there is none. -/
def insertRow (db : Database) (name : String) (row : Change) : Database :=
  db.setTable name (((db.table? name).getD .empty).insert row)

/-- The database without the row of an id in a ledger table. -/
def eraseRow (db : Database) (name : String) (id : ChangeId) : Database :=
  match db.table? name with
  | some table => db.setTable name (table.erase id)
  | none => db

/-! ## Locks -/

/-- Takes a lock unless it is held, and says whether it was taken. -/
def tryLock (db : Database) (key : Int64) : Bool × Database :=
  if db.locks.contains key then (false, db) else (true, { db with locks := db.locks ++ [key] })

/-- Gives a lock back, held or not. -/
def unlock (db : Database) (key : Int64) : Except DatabaseFault Unit × Database :=
  if db.lockStuck then (.error (.lockStuck key), db)
  else (.ok (), { db with locks := db.locks.filter (· ≠ key) })

/-! ## Circumstances -/

/-- The first of the failing patterns that a statement contains. -/
def failing? (db : Database) (sql : String) : Option String :=
  db.failures.find? (Text.contains sql)

def failOn (db : Database) (pattern : String) : Database :=
  { db with failures := db.failures ++ [pattern] }

end Database

end Migrations

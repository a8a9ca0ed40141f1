import Migrations.Proofs.Database.View
import Migrations.Proofs.Procedure.Steps

/-!
# Transactions against Changes Made at Once

A transaction only collects what it is asked to write, and it judges every request by the committed
rows and by what it has collected.  A private copy of the database that carries out every request at
once does not need to collect anything.  Both give the same answers, and a commit turns the database
into the copy.

## Main statements

- `Access.ends_request`: a transaction answers one request as the database does that it sees.
- `Access.run_requestAll`: so it answers any number of them.
- `Transaction.refines_immediate`: what this means for a transaction from its beginning to its end.
-/

namespace Migrations

open Attempt

/-! ## Requests -/

/-- Something that a transaction can be asked for before it ends. -/
inductive Request where
  | execute (sql : String)
  | insert (table : String) (row : Change)
  | delete (table : String) (id : ChangeId)
  deriving DecidableEq, Repr

/-- What a request is answered that is not refused. -/
inductive Reply where
  | done
  /-- Whether there was a row to delete. -/
  | deleted (existed : Bool)
  deriving DecidableEq, Repr

/-! ## Changes made at once -/

namespace Database

def executeNow (db : Database) (sql : String) : Except DatabaseFault Database :=
  match db.failing? sql with
  | some pattern => .error (.statement pattern sql)
  | none => .ok { db with log := db.log ++ [sql] }

/-- Adds a ledger row; there must not be one with its id. -/
def insertNow (db : Database) (name : String) (row : Change) : Except DatabaseFault Database :=
  match db.reach name with
  | .error fault => .error fault
  | .ok table =>
    if table.contains row.id then .error (.duplicate row.id name)
    else .ok (db.setTable name (table.insert row))

/-- Removes a ledger row, and says whether there was one. -/
def deleteNow (db : Database) (name : String) (id : ChangeId) :
    Except DatabaseFault (Database × Bool) :=
  match db.reach name with
  | .error fault => .error fault
  | .ok table => .ok (db.setTable name (table.erase id), table.contains id)

/-- Carries out a request. -/
def answer (db : Database) : Request → Except DatabaseFault (Database × Reply)
  | .execute sql => (db.executeNow sql).map fun next => (next, .done)
  | .insert table row => (db.insertNow table row).map fun next => (next, .done)
  | .delete table id => (db.deleteNow table id).map fun (next, existed) => (next, .deleted existed)

/-- Carries out requests one after the other.  One that is refused changes nothing. -/
def answerAll (db : Database) : List Request → Database × List (Except DatabaseFault Reply)
  | [] => (db, [])
  | request :: rest =>
    match db.answer request with
    | .ok (next, reply) =>
      let (last, replies) := next.answerAll rest
      (last, .ok reply :: replies)
    | .error fault =>
      let (last, replies) := db.answerAll rest
      (last, .error fault :: replies)

end Database

/-! ## Requests to transactions -/

namespace Access

/-- Asks an open transaction for something. -/
def request (tx : Transaction) : Request → Attempt DatabaseFault (Transaction × Reply)
  | .execute sql => (fun next => (next, .done)) <$> execute tx sql
  | .insert table row => (fun next => (next, .done)) <$> insert tx table row
  | .delete table id => (fun (next, existed) => (next, .deleted existed)) <$> delete tx table id

/-- Asks an open transaction for one thing after the other.  A request that is refused leaves the
transaction as it was. -/
def requestAll (tx : Transaction) :
    List Request → Procedure (Transaction × List (Except DatabaseFault Reply))
  | [] => return (tx, [])
  | next :: rest => do
    match ← (request tx next).run with
    | .ok (tx, reply) =>
      let (tx, replies) ← requestAll tx rest
      return (tx, .ok reply :: replies)
    | .error fault =>
      let (tx, replies) ← requestAll tx rest
      return (tx, .error fault :: replies)

end Access

/-! ## One request -/

theorem Database.insertRow_of_reach {db : Database} {name : String} {table : Table}
    (hreach : db.reach name = .ok table) (row : Change) :
    db.insertRow name row = db.setTable name (table.insert row) := by
  rw [insertRow, (reach_eq_ok.mp hreach).2]
  rfl

theorem Database.eraseRow_of_reach {db : Database} {name : String} {table : Table}
    (hreach : db.reach name = .ok table) (id : ChangeId) :
    db.eraseRow name id = db.setTable name (table.erase id) := by
  rw [eraseRow, (reach_eq_ok.mp hreach).2]

namespace Access

variable {tx : Transaction} {world : World}

/-- A transaction answers a request as the database does that it sees, and sees then what that
database has become. -/
theorem ends_request (hfits : tx.Fits world.database) (next : Request) :
    Ends (request tx next) world
      (fun result after => after = world ∧ result.1.Fits world.database ∧
        (tx.commit world.database).answer next =
          .ok (result.1.commit world.database, result.2))
      (fun fault after => after = world ∧
        (tx.commit world.database).answer next = .error fault) := by
  cases next with
  | execute sql =>
    -- the failing patterns are the same for the transaction and for what it sees
    have hfailing : (tx.commit world.database).failing? sql = world.database.failing? sql := by
      rw [tx.commit_eq]
      rfl
    rw [request, ends_map, execute, ends_ask, Transaction.execute, Database.answer,
      Database.executeNow, hfailing]
    cases world.database.failing? sql with
    | some pattern => exact ⟨rfl, rfl⟩
    | none =>
      refine ⟨rfl, hfits.add (by simp), ?_⟩
      rw [Transaction.commit_add]
      rfl
  | insert table row =>
    rw [request, ends_map, insert, ends_ask, hfits.insert_eq, Database.answer, Database.insertNow]
    cases hreach : (tx.commit world.database).reach table with
    | error fault => exact ⟨rfl, rfl⟩
    | ok rows =>
      dsimp only
      by_cases hthere : rows.contains row.id = true
      · rw [if_pos hthere, if_pos hthere]
        exact ⟨rfl, rfl⟩
      · rw [if_neg hthere, if_neg hthere]
        -- the table is there, so the write does not have to create it
        have hwrites : (tx.add (.insert table row)).Fits world.database := by
          apply hfits.add
          intro other row' hwrite
          cases hwrite
          exact hfits.isSome_table? hreach
        refine ⟨rfl, hwrites, ?_⟩
        rw [Transaction.commit_add, Write.apply, Database.insertRow_of_reach hreach]
        rfl
  | delete table id =>
    rw [request, ends_map, delete, ends_ask, hfits.delete_eq, Database.answer, Database.deleteNow]
    cases hreach : (tx.commit world.database).reach table with
    | error fault => exact ⟨rfl, rfl⟩
    | ok rows =>
      refine ⟨rfl, hfits.add (by simp), ?_⟩
      rw [Transaction.commit_add, Write.apply, Database.eraseRow_of_reach hreach]
      rfl

/-! ## Any number of requests -/

/-- A transaction answers requests as the database does that it sees, and sees then what that
database has become. -/
theorem run_requestAll (hfits : tx.Fits world.database) (requests : List Request) :
    ∃ last, (requestAll tx requests).run world =
        ((last, ((tx.commit world.database).answerAll requests).2), world) ∧
      last.commit world.database = ((tx.commit world.database).answerAll requests).1 := by
  -- with every request the transaction and the database that it sees go on together
  induction requests generalizing tx with
  | nil => exact ⟨tx, rfl, rfl⟩
  | cons next rest ih =>
    have hends := ends_request hfits next
    rw [requestAll, Procedure.run_bind, Database.answerAll]
    rcases hrun : (request tx next).run.run world with ⟨fault | ⟨then', reply⟩, after⟩
    · obtain ⟨rfl, hanswer⟩ := hends.of_error hrun
      obtain ⟨last, hlast, hcommit⟩ := ih hfits
      refine ⟨last, ?_, ?_⟩
      · simp only [Procedure.run_bind, hlast, hanswer]
        rfl
      · rw [hanswer]
        exact hcommit
    · obtain ⟨rfl, hfits', hanswer⟩ := hends.of_ok hrun
      obtain ⟨last, hlast, hcommit⟩ := ih hfits'
      refine ⟨last, ?_, ?_⟩
      · simp only [Procedure.run_bind, hlast, hanswer]
        rfl
      · rw [hanswer]
        exact hcommit

theorem still_ask {α : Type} {event : Event} (f : Database → Except DatabaseFault α) :
    Takes Still (ask event f) :=
  Procedure.everyStep_act fun _ => rfl

theorem still_request (tx : Transaction) (next : Request) :
    Takes Still (request tx next) := by
  -- to ask the database is one step, and what is made of its answer takes none
  cases next with
  | execute sql => exact takes_map _ (still_ask _)
  | insert table row => exact takes_map _ (still_ask _)
  | delete table id => exact takes_map _ (still_ask _)

theorem still_requestAll (tx : Transaction) (requests : List Request) :
    (requestAll tx requests).EveryStep Still := by
  induction requests generalizing tx with
  | nil => trivial
  | cons next rest ih =>
    rw [requestAll]
    apply Procedure.everyStep_bind (still_request tx next)
    intro result
    cases result with
    | error fault => exact Procedure.everyStep_bind (ih tx) fun _ => trivial
    | ok result => exact Procedure.everyStep_bind (ih result.1) fun _ => trivial

end Access

/-! ## Whole transactions -/

/-- A transaction that is asked for any number of things, one after the other, answers each of them
as a private copy of the database does that carries it out at once.  The commit turns the database
into that copy.  Until then nothing has changed, at no step of the transaction and whether it is
rolled back or just given up. -/
theorem Transaction.refines_immediate (world : World) (requests : List Request) :
    let session : Procedure (Transaction × List (Except DatabaseFault Reply)) := do
      Access.requestAll (← Access.begin) requests
    let ((tx, replies), after) := session.run world
    let copy := world.database.answerAll requests
    replies = copy.2 ∧
      ((Access.commit tx).run after).2 = { world with database := copy.1 } ∧
      after = world ∧ (Access.rollback.run after).2 = world ∧
      session.EveryStep Still := by
  intro session
  have hrun := Access.run_requestAll (Transaction.fits_empty world.database) requests
  obtain ⟨last, hlast, hcommit⟩ := hrun
  have hsession : session.run world =
      ((last, (world.database.answerAll requests).2), world) := by
    show (Access.begin >>= fun tx => Access.requestAll tx requests).run world = _
    rw [Procedure.run_bind, Access.run_begin]
    exact hlast
  rw [hsession]
  refine ⟨rfl, ?_, rfl, rfl, ?_⟩
  · show { world with database := last.commit world.database } = _
    rw [hcommit]
    rfl
  · apply Procedure.everyStep_bind (Procedure.everyStep_act fun _ => rfl)
    intro tx
    exact Access.still_requestAll tx requests

end Migrations

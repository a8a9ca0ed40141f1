import Migrations.Ledger
import Migrations.Proofs.Procedure.Ending

/-!
# Reading and Writing the Ledger

How the operations of a ledger end.  Reading sees the rows of its table, or nothing when there is no
table, and only needs the database to be reachable; writing adds to the transaction at hand.
-/

namespace Migrations

/-- The rows of a table that need not be there. -/
def Table.rowsOf (table? : Option Table) : List Change := (table?.getD .empty).rows

namespace Ledger

open Attempt

variable {ledger : Ledger} {world : World}

/-- What it says when the database cannot be asked for the ledger's table. -/
def refusal (ledger : Ledger) : Failure :=
  .persistence (.refused .lookFor ledger.table .connectionRefused)

theorem ends_isThere {ok : Bool → World → Prop} {error : Failure → World → Prop} :
    Ends ledger.isThere world ok error ↔
      if world.database.unreachable then error ledger.refusal world
      else ok (world.database.table? ledger.table).isSome world := by
  rw [isThere, guarded, ends_adapt, Access.hasTable, Access.ends_ask, Database.hasTable]
  by_cases hreach : world.database.unreachable = true <;> simp [hreach, refusal]

/-- The table is there in the end, unless the database cannot be asked. -/
theorem ends_ensure {ok : Unit → World → Prop} {error : Failure → World → Prop} :
    Ends ledger.ensure world ok error ↔
      if world.database.unreachable then error ledger.refusal world
      else ok () { world with database := world.database.createTable ledger.table } := by
  rw [ensure, ends_bind, ends_isThere]
  split
  · rfl
  · cases htable : world.database.table? ledger.table with
    | some table =>
      -- a table that is there is not made anew, so both ways come to the same
      have hsame : world.database.createTable ledger.table = world.database := by
        simp [Database.createTable, htable]
      rw [hsame]
      rfl
    | none => simp

theorem ends_changes {ok : List Change → World → Prop} {error : Failure → World → Prop} :
    Ends ledger.changes world ok error ↔
      if world.database.unreachable then error ledger.refusal world
      else ok (Table.rowsOf (world.database.table? ledger.table)) world := by
  rw [changes, ends_bind, ends_isThere]
  split
  · rfl
  · rename_i hreach
    cases htable : world.database.table? ledger.table with
    | none => rfl
    | some table =>
      have hselect : world.database.select ledger.table = .ok table.rows := by
        simp [Database.select, Database.reach, hreach, htable, Except.map]
      simp only [Option.isSome_some, if_true, guarded, ends_adapt, Access.select,
        Access.ends_ask, hselect]
      rfl

/-- The latest change is the last row. -/
theorem ends_latest? {ok : Option Change → World → Prop} {error : Failure → World → Prop} :
    Ends ledger.latest? world ok error ↔
      if world.database.unreachable then error ledger.refusal world
      else ok (Table.rowsOf (world.database.table? ledger.table)).getLast? world := by
  rw [latest?, ends_map, ends_changes]

/-- A record is stamped with the time at which it is written. -/
theorem ends_record {tx : Transaction} {change : Change}
    {ok : Transaction × Change → World → Prop} {error : Failure → World → Prop} :
    Ends (ledger.record tx change) world ok error ↔
      let row := change.stamped (world.clock world.readings)
      let after := { world with readings := world.readings + 1 }
      match tx.insert world.database ledger.table row with
      | .ok tx => ok (tx, row) after
      | .error fault => error (.persistence (.refused .write ledger.table fault)) after := by
  rw [record, ends_bind, ends_lift, Access.run_now]
  simp only [guarded, ends_bind, ends_adapt, Access.insert, Access.ends_ask]
  cases tx.insert world.database ledger.table (change.stamped (world.clock world.readings)) <;> rfl

theorem ends_remove {tx : Transaction} {id : ChangeId}
    {ok : Transaction → World → Prop} {error : Failure → World → Prop} :
    Ends (ledger.remove tx id) world ok error ↔
      match tx.delete world.database ledger.table id with
      | .ok (tx, _) => ok tx world
      | .error fault => error (.persistence (.refused .write ledger.table fault)) world := by
  rw [remove, ends_bind, guarded, ends_adapt, Access.delete, Access.ends_ask]
  cases tx.delete world.database ledger.table id <;> rfl

end Ledger

end Migrations

import Migrations.Proofs.Database.Rows
import Migrations.Proofs.Hook.Setting
import Migrations.Proofs.Hook.Work

/-!
# Hooks and the Ledger

Hooks that write no rows of a ledger table, neither through the transaction that they are given nor
past it.  The hooks that settings can name are of this kind: statements only reach the log, and
programs only reach the files.

## Main statements

- `Hooks.keepLedger_ofSettings`: the hooks of settings write no rows.
-/

namespace Migrations

open Attempt

/-- The hook writes no rows of a ledger table. -/
def Hook.KeepsLedger (hook : Hook) (table : String) : Prop :=
  ∀ context tx world, Ends (hook.call context (some tx)) world
    (fun tx? after => after.database.table? table = world.database.table? table ∧
      ∀ rows, (tx?.getD tx).onTable table rows = tx.onTable table rows)
    (fun _ after => after.database.table? table = world.database.table? table)

/-- The hooks write no rows of a ledger table. -/
def Hooks.KeepLedger (hooks : Hooks) (table : String) : Prop :=
  ∀ slot hook, hooks.find? slot = some hook → hook.KeepsLedger table

namespace Hook

variable {table : String}

/-- Statements write no rows. -/
theorem OnlyExecutes.keepsLedger {hook : Hook} (h : hook.OnlyExecutes) :
    hook.KeepsLedger table := by
  intro context tx world
  unfold Ends
  rw [h.run_call context tx rfl rfl]
  cases hook.outcome context world with
  | error fault => rfl
  | ok statements => exact ⟨rfl, tx.onTable_withStatements statements table⟩

theorem keepsLedger_program (program : HookProgram) :
    (Hook.program program).KeepsLedger table := by
  intro context tx world
  refine ends_program (fun after hdatabase => ?_) fun fault after hdatabase => ?_
  · exact ⟨congrArg (·.table? table) hdatabase, fun _ => rfl⟩
  · exact congrArg (·.table? table) hdatabase

end Hook

/-- The hooks that settings configure write no rows of any ledger table. -/
theorem Hooks.keepLedger_ofSettings {home : Home} {layout : Layout} {settings : Settings}
    {hooks : Hooks} (h : Hooks.ofSettings home layout settings = .ok hooks) (table : String) :
    hooks.KeepLedger table := by
  intro slot hook hfind
  cases describable_ofSettings h slot hook hfind with
  | statements path options rules =>
    exact (Hook.onlyExecutes_statements path options rules).keepsLedger
  | program program => exact Hook.keepsLedger_program program

end Migrations

import Migrations.Proofs.Hook.Setting
import Migrations.Proofs.Hook.Work

/-!
# Hooks and Run Locks

Hooks that leave the run locks alone.  A hook that acts through its transaction has no way to take a
lock or to give one back, and neither has a program.

## Main statements

- `Hook.Confined.quiet`: no call on a transaction touches a lock.
- `Hooks.quiet_ofSettings`: the hooks of settings leave the locks alone.
-/

namespace Migrations

open Attempt

/-- The hook takes no lock and gives none back, whatever it does otherwise. -/
def Hook.Quiet (hook : Hook) : Prop := ∀ context tx, IsQuiet (hook.call context (some tx))

/-- The hooks take no lock and give none back. -/
def Hooks.Quiet (hooks : Hooks) : Prop := ∀ slot hook, hooks.find? slot = some hook → hook.Quiet

namespace Hook

theorem Confined.quiet {hook : Hook} (h : hook.Confined) : hook.Quiet := h.takes ordinary_quiet

theorem quiet_program (program : HookProgram) : (Hook.program program).Quiet := by
  intro context tx
  refine takes_bind (Procedure.everyStep_act ⟨by simp, fun world => ?_⟩) fun _ => takes_pure _
  have hdatabase := program.database_run context world
  exact ⟨congrArg Database.locks hdatabase, congrArg Database.lockStuck hdatabase⟩

/-- A hook of the process that acts on the database leaves the locks alone when its action does. -/
theorem quiet_callback {name : String}
    {f : HookContext → Database → Except HookFault Unit × Database}
    (h : ∀ context db, (f context db).2.locks = db.locks ∧
      (f context db).2.lockStuck = db.lockStuck) :
    (Hook.callback name f).Quiet := by
  intro context tx
  refine takes_bind (Procedure.everyStep_act ⟨by simp, fun world => ?_⟩) fun _ => takes_pure _
  exact h context world.database

end Hook

namespace Hooks

/-- Calling hooks that leave the locks alone leaves them alone. -/
theorem Quiet.take {hooks : Hooks} (h : hooks.Quiet) : hooks.Take Migrations.Quiet :=
  ⟨fun _ _ => ⟨by simp, fun _ => ⟨rfl, rfl⟩⟩, h⟩

theorem Confined.quiet {hooks : Hooks} (h : hooks.Confined) : hooks.Quiet :=
  fun slot hook hfind => (h slot hook hfind).quiet

/-- The hooks that settings configure leave the locks alone. -/
theorem quiet_ofSettings {home : Home} {layout : Layout} {settings : Settings} {hooks : Hooks}
    (h : Hooks.ofSettings home layout settings = .ok hooks) : hooks.Quiet := by
  intro slot hook hfind
  cases describable_ofSettings h slot hook hfind with
  | statements path options rules =>
    exact (Hook.onlyExecutes_statements path options rules).confined.quiet
  | program program => exact Hook.quiet_program program

end Hooks

end Migrations

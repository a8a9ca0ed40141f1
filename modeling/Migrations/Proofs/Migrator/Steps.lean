import Migrations.Proofs.Hook.Quiet
import Migrations.Proofs.Migrator.Operation
import Migrations.Proofs.Run.Steps

/-!
# Steps of Operations

The work that migrators do under the run lock leaves the locks alone, step by step, when the hooks
leave them alone.  An operation is therefore one attempt to take the lock, and then either nothing
or quiet steps up to the one that gives the lock back.

## Main statements

- `Operation.takes_work`: the steps of the work of an operation.
- `Operation.quiet_work`: they leave the locks alone.
- `Operation.run_perform`: the steps of a whole operation.
-/

namespace Migrations

open Attempt Procedure

/-! ## Operations -/

/-- The hooks of a migrator that is made from settings leave the locks alone. -/
theorem Migrator.quiet_make {home : Home} {layout : Layout} {settings : Settings}
    {migrator : Migrator} (h : Migrator.make home layout settings = .ok migrator) :
    migrator.hooks.Quiet :=
  Hooks.quiet_ofSettings (Migrator.hooks_make h)

namespace Operation

section Steps

variable {migrator : Migrator} {P : Event → (World → World) → Prop} (hP : Ordinary P)

include hP

theorem takes_bootstrapScript : Takes P migrator.bootstrapScript := by
  refine takes_bind (Access.takes_files hP _) fun text? => ?_
  cases text? with
  | none => trivial
  | some text =>
    refine takes_bind (takes_adapt _ (Access.takes_inTransaction hP fun tx => ?_)) fun _ => trivial
    exact takes_bind (Access.takes_executeAll hP tx _) fun _ => trivial

theorem takes_runBootstrap (force : Bool) : Takes P (migrator.runBootstrap force) := by
  rw [Migrator.runBootstrap_eq]
  split
  · exact takes_bootstrapScript hP
  · refine takes_bind (Ledger.takes_isThere hP) fun there => ?_
    split
    · trivial
    · exact takes_bootstrapScript hP

variable (hhooks : migrator.hooks.Take P)

include hhooks

theorem takes_runPlan (plan : Plan) : Takes P (migrator.runPlan plan) :=
  takes_bind (Access.takes_files hP _) fun _ => Runner.takes_run hP hhooks plan

theorem takes_runTarget (direction : Direction) (target : Target) :
    Takes P (migrator.runTarget direction target) := by
  refine takes_bind ?_ (takes_runPlan hP hhooks)
  exact takes_bind (Access.takes_files hP _) fun _ =>
    takes_bind (Ledger.takes_changes hP) fun _ => Access.takes_files hP _

theorem takes_runVersion (id : ChangeId) : Takes P (migrator.runVersion id) := by
  rw [runVersion_eq]
  refine takes_bind ?_ (takes_runPlan hP hhooks)
  refine takes_bind (Access.takes_files hP _) fun catalog => ?_
  dsimp only
  split
  · trivial
  · exact takes_bind (Ledger.takes_changes hP) fun _ => Access.takes_files hP _

/-- What holds of ordinary steps and of calling the hooks holds of the work of an operation. -/
theorem takes_work (operation : Operation) : Takes P (operation.work migrator) := by
  cases operation with
  | up target => exact takes_map _ (takes_runTarget hP hhooks .up target)
  | down target => exact takes_map _ (takes_runTarget hP hhooks .down target)
  | version id => exact takes_map _ (takes_runVersion hP hhooks id)
  | bootstrap force => exact takes_map _ (takes_runBootstrap hP force)

end Steps

/-- The work of an operation leaves the locks alone. -/
theorem quiet_work {migrator : Migrator} (hhooks : migrator.hooks.Quiet) (operation : Operation) :
    IsQuiet (operation.work migrator) :=
  operation.takes_work ordinary_quiet hhooks.take

end Operation

/-! ## Whole operations -/

/-- What is left of work under a lock: quiet steps, then the one that gives the lock back. -/
def Procedure.Critical {α : Type} (key : Int64) : Procedure α → Prop
  | done _ => False
  | step event update next =>
    (Quiet event update ∧ ∀ world, (next world).Critical key) ∨
      (event = .unlock key ∧ update = RunLock.returned key ∧ ∀ world, ∃ a, next world = done a)

theorem Procedure.critical_bind {α β : Type} {key : Int64} {procedure : Procedure α}
    {f : α → Procedure β} (h : procedure.EveryStep Quiet) (hf : ∀ a, (f a).Critical key) :
    (procedure >>= f).Critical key := by
  induction procedure with
  | done a => exact hf a
  | step event update next ih => exact .inl ⟨h.1, fun world => ih world (h.2 world)⟩

/-- An operation tries to take the lock.  When it is held, the operation is refused and takes no
other step; else it has the lock until its last step. -/
theorem Operation.run_perform {migrator : Migrator} (hhooks : migrator.hooks.Quiet)
    (operation : Operation) {key : Int64} (hkey : migrator.settings.lockKey = key) :
    ∃ next, (operation.perform migrator).run = step (.tryLock key) (RunLock.taken key) next ∧
      ∀ world, if key ∈ world.database.locks then next world = done (.error (.concurrent key))
        else (next world).Critical key := by
  subst hkey
  rw [perform_eq_holding, RunLock.run_holding]
  refine ⟨_, rfl, fun world => ?_⟩
  by_cases hheld : migrator.settings.lockKey ∈ world.database.locks
  · rw [if_pos hheld, if_pos (List.contains_iff_mem.mpr hheld)]
  · rw [if_neg hheld, if_neg fun h => hheld (List.contains_iff_mem.mp h)]
    -- after the work, whatever it came to, the lock is given back
    refine critical_bind (operation.quiet_work hhooks) fun result => ?_
    exact .inr ⟨rfl, rfl, fun world => ⟨_, rfl⟩⟩

end Migrations

import Migrations.Migrator.Bootstrap
import Migrations.Proofs.Run.Execution
import Migrations.Proofs.RunLock

/-!
# Operations of Migrators

The operations that change a database, as one type, and what they execute.  A run that fails gives
no report, although scripts of it may be committed; the account of an operation keeps what the
report would say.

## Main statements

- `Operation.perform_eq_holding`: every operation does its work under the run lock.
- `Operation.perform_eq_account`: an operation does what its account says.
-/

namespace Migrations

/-- A migrator that is made has the hooks that its settings configure. -/
theorem Migrator.hooks_make {home : Home} {layout : Layout} {settings : Settings}
    {migrator : Migrator} (h : Migrator.make home layout settings = .ok migrator) :
    Hooks.ofSettings home layout settings = .ok migrator.hooks := by
  obtain ⟨folder, -, h⟩ := bind_eq_ok.mp h
  split at h
  · cases h
  · rename_i hooks hhooks
    cases h
    exact hhooks

/-- What a migrator can be asked to do with its database. -/
inductive Operation where
  | up (target : Target)
  | down (target : Target)
  | version (id : ChangeId)
  | bootstrap (force : Bool)
  deriving DecidableEq, Repr

/-- What an operation answers when it succeeds. -/
inductive Answer where
  | ran (report : Report)
  | bootstrapped (outcome : Bootstrap)
  deriving DecidableEq, Repr

namespace Operation

/-- The operation of a migrator. -/
def perform (migrator : Migrator) : Operation → Attempt Failure Answer
  | up target => .ran <$> migrator.up target
  | down target => .ran <$> migrator.down target
  | version id => .ran <$> migrator.version id
  | bootstrap force => .bootstrapped <$> migrator.bootstrap force

/-- The work of the operation, which is done under the lock. -/
def work (migrator : Migrator) : Operation → Attempt Failure Answer
  | up target => .ran <$> migrator.runTarget .up target
  | down target => .ran <$> migrator.runTarget .down target
  | version id => .ran <$> migrator.runVersion id
  | bootstrap force => .bootstrapped <$> migrator.runBootstrap force

theorem perform_eq_holding (migrator : Migrator) (operation : Operation) :
    operation.perform migrator =
      RunLock.holding migrator.settings.lockKey (operation.work migrator) := by
  -- what wraps up the result takes no step, so it can be done under the lock as well
  have hmap : ∀ {α : Type} (f : α → Answer) (attempt : Attempt Failure α),
      f <$> RunLock.holding migrator.settings.lockKey attempt =
        RunLock.holding migrator.settings.lockKey (f <$> attempt) := by
    intro α f attempt
    rw [map_eq_pure_bind, map_eq_pure_bind]
    exact (RunLock.holding_bind attempt fun a => .ok (f a)).symm
  cases operation <;> exact hmap _ _

/-! ## Accounts -/

/-- The plan of a run to a version. -/
def versionPlan (migrator : Migrator) (id : ChangeId) : Attempt Failure Plan := do
  let catalog ← migrator.catalog
  if !catalog.contains id then throw (.unknownVersion id)
  let changes ← migrator.ledger.changes
  Access.files fun home => Plan.toVersion catalog home changes id

/-- The scripts whose execution a report calls committed, in order. -/
def executionsOf (report : Report) : List (ChangeId × Direction) :=
  report.committed.map fun id => (id, report.direction)

/-- The account of a run that is executed by a plan. -/
def runAccount (migrator : Migrator) (plan : Attempt Failure Plan) :
    Attempt Failure (List (ChangeId × Direction) × Except Failure Answer) := do
  let (report, result) ← migrator.execute (← plan)
  return (executionsOf report, result.map fun _ => .ran report)

/-- The operation with the executions that were committed, which a run that fails does not
report. -/
def account (migrator : Migrator) (operation : Operation) :
    Attempt Failure (List (ChangeId × Direction) × Except Failure Answer) :=
  migrator.underLock <|
    match operation with
    | up target => runAccount migrator (migrator.plan .up target)
    | down target => runAccount migrator (migrator.plan .down target)
    | version id => runAccount migrator (versionPlan migrator id)
    | bootstrap force => do return ([], .ok (.bootstrapped (← migrator.runBootstrap force)))

/-- A run is its account with the report of a run that fails left out. -/
theorem runAccount_bind (migrator : Migrator) (plan : Attempt Failure Plan) :
    (runAccount migrator plan >>= fun account => liftM account.2) =
      Answer.ran <$> (plan >>= migrator.runPlan) := by
  unfold runAccount Migrator.execute Migrator.runPlan
  simp only [map_bind, bind_assoc, pure_bind]
  congr 1
  funext plan
  congr 1
  funext onAbort
  rw [Runner.run_eq, map_bind]
  refine congrArg (_ >>= ·) (funext fun executed => ?_)
  -- the answer is the report of the execution, or its failure
  cases executed.2 <;> rfl

theorem runVersion_eq (migrator : Migrator) (id : ChangeId) :
    migrator.runVersion id = versionPlan migrator id >>= migrator.runPlan := by
  unfold Migrator.runVersion versionPlan
  simp only [bind_assoc]
  congr 1
  funext catalog
  split
  · rfl
  · simp only [bind_assoc]

end Operation

/-! ## Bootstrapping -/

namespace Migrator

/-- What bootstrapping does unless there is a ledger. -/
def bootstrapScript (migrator : Migrator) : Attempt Failure Bootstrap := do
  match ← Access.files migrator.folder.bootstrap? with
  | none => return .noScript
  | some text =>
    let statements := migrator.settings.statementRules.statements text
    (Access.inTransaction fun tx => do
      return (← Access.executeAll tx statements, ())).adapt Failure.database
    return .applied statements.length

theorem runBootstrap_eq (migrator : Migrator) (force : Bool) :
    migrator.runBootstrap force =
      if force then migrator.bootstrapScript
      else migrator.ledger.isThere >>= fun there =>
        if there then return .ledgerExists else migrator.bootstrapScript := by
  cases force <;> rfl

end Migrator

namespace Operation

/-- An operation does what its account says. -/
theorem perform_eq_account (migrator : Migrator) (operation : Operation) :
    operation.perform migrator =
      operation.account migrator >>= fun account => liftM account.2 := by
  rw [perform_eq_holding]
  unfold account Migrator.underLock
  rw [← RunLock.holding_bind]
  congr 1
  cases operation with
  | up target => exact (runAccount_bind migrator _).symm
  | down target => exact (runAccount_bind migrator _).symm
  | version id =>
    dsimp only [work]
    rw [runVersion_eq]
    exact (runAccount_bind migrator _).symm
  | bootstrap force =>
    dsimp only [work]
    rw [map_eq_pure_bind, bind_assoc]
    rfl

end Operation

end Migrations

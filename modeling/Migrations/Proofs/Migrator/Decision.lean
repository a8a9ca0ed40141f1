import Migrations.Proofs.Migrator.Planning
import Migrations.Proofs.Migrator.Steps
import Migrations.Proofs.Procedure.Reading

/-!
# What Operations Decide

Under its lock an operation first finds out what there is to do: it scans the scripts, reads the
ledger, makes a plan and reads the script that a failed run falls back on.  All of this only reads,
so an operation that gets no further leaves nothing behind.  The decision is a function of the files
and the database; what comes after it is the work itself.

## Main statements

- `Operation.finds_resolve`: the decision is found out by reading alone.
- `Operation.work_of_decision`: the work fails as the decision does, or else does what was decided.
- `Operation.perform_tidy`: what an operation leaves behind.
-/

namespace Migrations

open Attempt RunLock

/-! ## Decisions -/

/-- What is done once everything is known. -/
inductive Decision where
  /-- The plan is executed, with the text of the abort script. -/
  | run (plan : Plan) (onAbort : Option String)
  /-- The text of the bootstrap script is executed. -/
  | bootstrap (text : String)
  /-- There is no need to bootstrap. -/
  | idle (outcome : Bootstrap)
  deriving DecidableEq

/-- Does what was decided. -/
def Decision.perform (migrator : Migrator) : Decision → Attempt Failure Answer
  | run plan onAbort => .ran <$> (migrator.runner onAbort).run plan
  | bootstrap text => do
    let statements := migrator.settings.statementRules.statements text
    (Access.inTransaction fun tx => do
      return (← Access.executeAll tx statements, ())).adapt Failure.database
    return .bootstrapped (.applied statements.length)
  | idle outcome => return .bootstrapped outcome

namespace Migrator

/-- Whether the migrator's ledger is there, if the database can be asked. -/
def ledgerIn (migrator : Migrator) (world : World) : Except Failure Bool :=
  if world.database.unreachable then .error migrator.ledger.refusal
  else .ok (world.database.table? migrator.settings.changelogTable).isSome

/-- The changes of the migrator's ledger, if the database can be asked. -/
def changesIn (migrator : Migrator) (world : World) : Except Failure (List Change) :=
  if world.database.unreachable then .error migrator.ledger.refusal else .ok (migrator.rows world)

/-- The plan that the scripts and the ledger lead to. -/
def planIn (migrator : Migrator) (direction : Direction) (target : Target) (world : World) :
    Except Failure Plan := do
  let catalog ← migrator.folder.scan world.home
  let changes ← migrator.changesIn world
  Plan.make catalog world.home changes direction target

/-- The plan that they lead to for a version, of which there has to be a script. -/
def versionPlanIn (migrator : Migrator) (id : ChangeId) (world : World) : Except Failure Plan := do
  let catalog ← migrator.folder.scan world.home
  if !catalog.contains id then throw (.unknownVersion id)
  let changes ← migrator.changesIn world
  Plan.toVersion catalog world.home changes id

end Migrator

namespace Operation

variable {migrator : Migrator}

/-- What a run comes to whose plan is found in the world. -/
def runDecision (migrator : Migrator) (world : World) (plan? : Except Failure Plan) :
    Except Failure Decision := do
  let plan ← plan?
  let onAbort ← migrator.folder.onAbort? world.home
  return .run plan onAbort

/-- What bootstrapping comes to with or without a script. -/
def bootstrapDecision : Option String → Decision
  | none => .idle .noScript
  | some text => .bootstrap text

/-- What the scripts, the ledger and the settings make an operation do, or why it cannot be done. -/
def decision (migrator : Migrator) (world : World) : Operation → Except Failure Decision
  | up target => runDecision migrator world (migrator.planIn .up target world)
  | down target => runDecision migrator world (migrator.planIn .down target world)
  | version id => runDecision migrator world (migrator.versionPlanIn id world)
  | bootstrap force => do
    let there ← if force then .ok false else migrator.ledgerIn world
    if there then return .idle .ledgerExists
    let text? ← migrator.folder.bootstrap? world.home
    return bootstrapDecision text?

/-! ## Deciding -/

/-- Finds out what a run comes to. -/
def resolveRun (migrator : Migrator) (plan : Attempt Failure Plan) : Attempt Failure Decision := do
  let plan ← plan
  let onAbort ← Access.files migrator.folder.onAbort?
  return .run plan onAbort

/-- Finds out what there is to do, which is the first part of the work. -/
def resolve (migrator : Migrator) : Operation → Attempt Failure Decision
  | up target => resolveRun migrator (migrator.plan .up target)
  | down target => resolveRun migrator (migrator.plan .down target)
  | version id => resolveRun migrator (versionPlan migrator id)
  | bootstrap force => do
    let there ← if force then pure false else migrator.ledger.isThere
    if there then return .idle .ledgerExists
    let text? ← Access.files migrator.folder.bootstrap?
    return bootstrapDecision text?

theorem runPlan_eq (plan : Attempt Failure Plan) :
    Answer.ran <$> (plan >>= migrator.runPlan) =
      resolveRun migrator plan >>= Decision.perform migrator := by
  unfold resolveRun Migrator.runPlan
  simp only [map_bind, bind_assoc, pure_bind, Decision.perform]

theorem bootstrapScript_eq :
    Answer.bootstrapped <$> migrator.bootstrapScript =
      Access.files migrator.folder.bootstrap? >>= fun text? =>
        (bootstrapDecision text?).perform migrator := by
  unfold Migrator.bootstrapScript
  rw [map_bind]
  refine congrArg (_ >>= ·) (funext fun text? => ?_)
  cases text? with
  | none => rfl
  | some text => simp only [bootstrapDecision, Decision.perform, map_bind, map_pure]

/-- The work of an operation is to decide and then to do what was decided. -/
theorem work_eq (operation : Operation) :
    operation.work migrator = operation.resolve migrator >>= Decision.perform migrator := by
  cases operation with
  | up target => exact runPlan_eq _
  | down target => exact runPlan_eq _
  | version id =>
    dsimp only [work]
    rw [runVersion_eq]
    exact runPlan_eq _
  | bootstrap force =>
    dsimp only [work, resolve]
    rw [Migrator.runBootstrap_eq]
    cases force with
    | true =>
      rw [if_pos rfl, bootstrapScript_eq, if_pos rfl, pure_bind, if_neg Bool.false_ne_true]
      simp only [bind_assoc, pure_bind]
    | false =>
      rw [if_neg Bool.false_ne_true, if_neg Bool.false_ne_true, map_bind, bind_assoc]
      refine congrArg (_ >>= ·) (funext fun there => ?_)
      cases there with
      | true => rfl
      | false =>
        rw [if_neg Bool.false_ne_true, if_neg Bool.false_ne_true, bootstrapScript_eq]
        simp only [bind_assoc, pure_bind]

/-! ## Reading -/

theorem finds_ledger : Finds migrator.ledger.isThere migrator.ledgerIn := by
  refine (finds_adapt _ (Access.finds_ask _ rfl)).congr fun world => ?_
  unfold Migrator.ledgerIn Database.hasTable
  split
  · rfl
  · rfl

theorem finds_changes : Finds migrator.ledger.changes migrator.changesIn := by
  refine (finds_bind finds_ledger fun there =>
    finds_ite (finds_adapt _ (Access.finds_ask _ rfl)) (finds_pure [])).congr fun world => ?_
  unfold Migrator.ledgerIn Migrator.changesIn Migrator.rows
  cases hreach : world.database.unreachable with
  | true => rfl
  | false =>
    cases htable : world.database.table? migrator.settings.changelogTable with
    | none => rfl
    | some table =>
      -- a table that was found can be read, because the database answered once already
      have hselect : world.database.select migrator.ledger.table = .ok table.rows := by
        simp [Database.select, Database.reach, hreach, Migrator.ledger, htable, Except.map]
      show (world.database.select migrator.ledger.table).mapError _ = .ok table.rows
      rw [hselect]
      rfl

theorem finds_plan (direction : Direction) (target : Target) :
    Finds (migrator.plan direction target) (migrator.planIn direction target) :=
  finds_bind (Access.finds_files _) fun _ => finds_bind finds_changes fun _ => Access.finds_files _

theorem finds_versionPlan (id : ChangeId) :
    Finds (versionPlan migrator id) (migrator.versionPlanIn id) := by
  refine finds_bind (Access.finds_files _) fun catalog => ?_
  cases catalog.contains id with
  | false => exact finds_throw _
  | true => exact finds_bind finds_changes fun _ => Access.finds_files _

/-- An operation finds out what to do by reading alone. -/
theorem finds_resolve (operation : Operation) :
    Finds (operation.resolve migrator) fun world => operation.decision migrator world := by
  -- the abort script is read when there is a plan
  have hrun : ∀ {plan : Attempt Failure Plan} {plan? : World → Except Failure Plan},
      plan.Finds plan? →
      Finds (resolveRun migrator plan) fun world => runDecision migrator world (plan? world) := by
    intro plan plan? hplan
    exact finds_bind hplan fun plan => finds_bind (Access.finds_files _) fun _ => finds_pure _
  have hscript : Finds (do return bootstrapDecision (← Access.files migrator.folder.bootstrap?))
      fun world => (migrator.folder.bootstrap? world.home).map bootstrapDecision :=
    finds_bind (Access.finds_files _) fun _ => finds_pure _
  cases operation with
  | up target => exact hrun (finds_plan .up target)
  | down target => exact hrun (finds_plan .down target)
  | version id => exact hrun (finds_versionPlan id)
  | bootstrap force =>
    cases force with
    | true => exact hscript
    | false =>
      refine finds_bind finds_ledger fun there => ?_
      cases there with
      | true => exact finds_pure _
      | false => exact hscript

/-! ## Operations -/

/-- The lock of the operation itself has no part in its decision. -/
theorem decision_taken (operation : Operation) (key : Int64) (world : World) :
    operation.decision migrator (taken key world) = operation.decision migrator world := by
  have hledger : migrator.ledgerIn (taken key world) = migrator.ledgerIn world := by
    unfold Migrator.ledgerIn
    rw [unreachable_taken, table?_taken]
  have hchanges : migrator.changesIn (taken key world) = migrator.changesIn world := by
    unfold Migrator.changesIn
    rw [unreachable_taken, Migrator.rows_taken]
  cases operation with
  | up target => simp only [decision, runDecision, Migrator.planIn, home_taken, hchanges]
  | down target => simp only [decision, runDecision, Migrator.planIn, home_taken, hchanges]
  | version id => simp only [decision, runDecision, Migrator.versionPlanIn, home_taken, hchanges]
  | bootstrap force => simp only [decision, home_taken, hledger]

/-- The work fails as the decision does, or else does what was decided. -/
theorem work_of_decision (operation : Operation) (world : World) :
    match operation.decision migrator world with
    | .error failure => (operation.work migrator).run.run world = (.error failure, world) ∧
        (operation.work migrator).run.calls world = []
    | .ok decision =>
        let done := (decision.perform migrator).run
        (operation.work migrator).run.run world = done.run world ∧
          (operation.work migrator).run.calls world = done.calls world := by
  obtain ⟨hrun, hcalls⟩ := @finds_resolve migrator operation world
  rw [work_eq, ExceptT.run_bind, Procedure.run_bind, Procedure.calls_bind, hrun, hcalls]
  dsimp only
  cases operation.decision migrator world with
  | error failure => exact ⟨rfl, rfl⟩
  | ok decision => exact ⟨rfl, rfl⟩

/-- Hooks that leave the locks alone give an operation no way to hold one in the end. -/
theorem locks_perform (operation : Operation) {world : World}
    (hstuck : world.database.lockStuck = false) (hhooks : migrator.hooks.Quiet) :
    ((operation.perform migrator).run.run world).2.database.locks = world.database.locks := by
  rw [perform_eq_holding]
  by_cases hheld : migrator.settings.lockKey ∈ world.database.locks
  · rw [(run_holding_of_held hheld _).1]
  · rw [(run_holding_of_free hheld _).1]
    have hkept := Procedure.run_of_quiet (operation.quiet_work hhooks)
      (taken migrator.settings.lockKey world)
    -- the lock is given back in a world that holds the same locks as the one it was taken in
    dsimp only
    rw [locks_returned_congr hkept.1 hkept.2, returned_taken hheld hstuck]

/-- What an operation leaves behind where locks can be given back.  When the lock is held, it is
refused and does nothing.  Else the lock is given back, all locks are the ones that were held
before, and an operation that cannot decide what to do has done nothing: the world is as it was, no
hook was called and no statement executed.  What was decided is done from a world in which nothing
has changed but the lock. -/
theorem perform_tidy (migrator : Migrator) (operation : Operation) (world : World) :
    let key := migrator.settings.lockKey
    let run := (operation.perform migrator).run.run world
    let calls := (operation.perform migrator).run.calls world
    (key ∈ world.database.locks → run = (.error (.concurrent key), world) ∧ calls = []) ∧
    (world.database.lockStuck = false →
      (migrator.hooks.Quiet → run.2.database.locks = world.database.locks) ∧
      (key ∉ world.database.locks →
        match operation.decision migrator world with
        | .error failure => run = (.error failure, world) ∧ calls = []
        | .ok decision =>
          let done := (decision.perform migrator).run.run (taken key world)
          run = (done.1, returned key done.2) ∧
            calls = (decision.perform migrator).run.calls (taken key world))) := by
  intro key run calls
  have hperform := operation.perform_eq_holding migrator
  refine ⟨fun hheld => ?_, fun hstuck => ⟨operation.locks_perform hstuck, fun hfree => ?_⟩⟩
  · have hrefused := run_holding_of_held hheld (operation.work migrator)
    rwa [← hperform] at hrefused
  · obtain ⟨hrun, hcalls⟩ := run_holding_of_free hfree (operation.work migrator)
    rw [← hperform] at hrun hcalls
    have hwork := @work_of_decision migrator operation (taken key world)
    rw [decision_taken] at hwork
    cases hdecision : operation.decision migrator world with
    | error failure =>
      rw [hdecision] at hwork
      rw [hwork.1, returned_taken hfree hstuck] at hrun
      exact ⟨hrun, hcalls.trans hwork.2⟩
    | ok decision =>
      rw [hdecision] at hwork
      rw [hwork.1] at hrun
      exact ⟨hrun, hcalls.trans hwork.2⟩

/-- A world with a script to apply, an abort script that is not a text, and a lock that somebody
else holds. -/
private def garbled : World where
  home := ⟨[(["scripts"], .folder),
    (["scripts", "1_begin.sql"], .file "create a;".toUTF8 false),
    (["scripts", "onabort.sql"], .file ⟨#[255]⟩ false)]⟩
  database := { locks := [5] }

private def garbledScripts : Catalog where
  entries := [⟨⟨1⟩, "begin", "1_begin.sql", .file ⟨"scripts/1_begin.sql"⟩⟩]
  ascending := by decide

private theorem decision_garbled : (Operation.up .latest).decision .plain garbled =
    .error (.malformed "onabort.sql" .notText) := by
  have hscan : Migrator.plain.folder.scan garbled.home = .ok garbledScripts :=
    ScriptFolder.scan_of_ascending (by rfl) (by rfl) (by rfl) garbledScripts.ascending
  have hplan : Plan.make garbledScripts garbled.home [] .up .latest =
      .ok ⟨.up, [⟨⟨1⟩, "begin", "1_begin.sql", "create a;\n", none⟩], [], []⟩ :=
    eq_ok_of_toOption (by decide +kernel)
  rw [decision, Migrator.planIn, hscan]
  show runDecision _ _ (Plan.make garbledScripts garbled.home [] .up .latest) = _
  rw [hplan]
  rfl

/-- The script is found, but without the abort script it is not begun.  While somebody else holds
the lock of the migrator itself, it is not even looked for. -/
theorem perform_tidy_garbled :
    let attempt := ((Operation.up .latest).perform .plain).run
    let key := Migrator.plain.settings.lockKey
    let contested : World := { garbled with database := { locks := [key] } }
    (attempt.run garbled = (.error (.malformed "onabort.sql" .notText), garbled) ∧
      attempt.calls garbled = [] ∧ (attempt.run garbled).2.database.locks = [5]) ∧
    attempt.run contested = (.error (.concurrent key), contested) ∧
      attempt.calls contested = [] := by
  intro attempt key contested
  obtain ⟨-, htidy⟩ := perform_tidy .plain (.up .latest) garbled
  obtain ⟨hlocks, hdecided⟩ := htidy rfl
  have hrun := hdecided (by decide)
  rw [decision_garbled] at hrun
  have hquiet : Migrator.plain.hooks.Quiet := by
    intro slot hook hfind
    cases hfind
  obtain ⟨hrefused, -⟩ := perform_tidy .plain (.up .latest) contested
  exact ⟨⟨hrun.1, hrun.2, hlocks hquiet⟩, hrefused (by decide)⟩

end Operation

end Migrations

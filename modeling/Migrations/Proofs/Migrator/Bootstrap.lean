import Migrations.Proofs.Migrator.Decision

/-!
# Bootstrapping a Database

The bootstrap script is for databases that have no ledger yet.  Its statements are committed all
together or not at all, and neither they nor the refusals around them touch a ledger table.  Tables
are never dropped: every step of an operation keeps the tables that are there, so once a run upwards
has created the ledger, there is nothing left to bootstrap.

## Main statements

- `Hooks.keepTables_ofSettings`: the hooks that settings configure drop no table.
- `Migrator.run_bootstrap`: what bootstrapping does, as a function of the world.
- `Runner.isSome_execute`: a run upwards leaves the ledger's table behind, even if it fails.
- `HasLedger.isSome`: the table is still there, whatever operations come later.
- `Migrator.bootstrap_all_or_nothing`: what is and what is not left behind.
-/

namespace Migrations

open Attempt Procedure RunLock

/-! ## Tables stay -/

/-- The step drops no ledger table. -/
def KeepsTables (_ : Event) (update : World → World) : Prop :=
  ∀ (world : World) (name : String), (world.database.table? name).isSome →
    ((update world).database.table? name).isSome

/-- A commit changes the rows of tables and may create some. -/
theorem Transaction.isSome_commit (tx : Transaction) {db : Database} {name : String}
    (h : (db.table? name).isSome) : ((tx.commit db).table? name).isSome := by
  obtain ⟨table, htable⟩ := Option.isSome_iff_exists.mp h
  obtain ⟨seen, hseen, -⟩ := onTable_eq_some name tx.writes table
  rw [table?_commit, htable, onTable, hseen]
  rfl

theorem ordinary_keepsTables : Ordinary KeepsTables where
  look _ _ _ h := h
  now _ _ h := h
  createTable name world other h := by
    dsimp only
    rw [Database.table?_createTable]
    split
    · rfl
    · exact h
  commit tx _ _ h := tx.isSome_commit h

/-- Steps that drop no table, however many, leave a table that was there. -/
theorem Procedure.isSome_run {α : Type} {procedure : Procedure α}
    (h : procedure.EveryStep KeepsTables) {world : World} {name : String}
    (hthere : (world.database.table? name).isSome) :
    ((procedure.run world).2.database.table? name).isSome := by
  induction procedure generalizing world with
  | done a => exact hthere
  | step event update next ih => exact ih world (h.2 world) (h.1 world name hthere)

/-- Hooks that act through their transactions drop no table. -/
theorem Hooks.Confined.keepTables {hooks : Hooks} (h : hooks.Confined) :
    hooks.Take KeepsTables :=
  h.take ordinary_keepsTables fun _ _ _ _ hthere => hthere

/-- Nor do the hooks that settings configure. -/
theorem Hooks.keepTables_ofSettings {home : Home} {layout : Layout} {settings : Settings}
    {hooks : Hooks} (h : Hooks.ofSettings home layout settings = .ok hooks) :
    hooks.Take KeepsTables := by
  refine ⟨fun _ _ _ _ hthere => hthere, fun slot hook hfind context tx => ?_⟩
  cases describable_ofSettings h slot hook hfind with
  | statements path options rules =>
    exact (Hook.onlyExecutes_statements path options rules).confined.takes ordinary_keepsTables
      context tx
  | program program =>
    refine takes_bind (Procedure.everyStep_act fun world name hthere => ?_) fun _ => takes_pure _
    dsimp only
    rwa [program.database_run context world]

/-! ## The ledger of a run -/

theorem Database.isSome_createTable (db : Database) (name : String) :
    ((db.createTable name).table? name).isSome := by
  rw [table?_createTable, if_pos rfl]
  rfl

/-- A ledger whose table was made sure of has its table. -/
theorem Ledger.isSome_of_ensure {ledger : Ledger} {world after : World}
    (h : ledger.ensure.run.run world = (.ok (), after)) :
    (after.database.table? ledger.table).isSome := by
  have hends : Ends ledger.ensure world
      (fun _ last => (last.database.table? ledger.table).isSome) fun _ _ => True := by
    rw [ends_ensure]
    split
    · trivial
    · exact world.database.isSome_createTable ledger.table
  exact hends.of_ok h

/-- A run upwards that has something to do leaves the table of its ledger behind, whatever becomes
of its scripts. -/
theorem Runner.isSome_execute {runner : Runner} {plan : Plan} {world : World}
    (hhooks : runner.hooks.Take KeepsTables) (hup : plan.direction = .up)
    (hbusy : plan.isEmpty = false) (hreach : world.database.unreachable = false) :
    (((runner.execute plan).run world).2.database.table? runner.ledger.table).isSome := by
  rw [execute_busy hbusy, Procedure.run_bind]
  refine Procedure.isSome_run (everyStep_conclude ordinary_keepsTables _) ?_
  unfold runScripts
  rw [if_pos (by rw [hup]; rfl), ExceptT.run_bind, Procedure.run_bind]
  -- the table is created first, and what comes after it drops no table
  have hensure : (runner.ledger.ensure.adapt fun failure =>
        (plan.scripts.map Outcome.pending, failure)).run.run world =
      (.ok (), { world with database := world.database.createTable runner.ledger.table }) := by
    refine Ends.run_eq ?_
    rw [ends_adapt, Ledger.ends_ensure, hreach]
    exact ⟨rfl, rfl⟩
  rw [hensure]
  exact Procedure.isSome_run (takes_runMode ordinary_keepsTables hhooks plan)
    (world.database.isSome_createTable runner.ledger.table)

/-- An operation drops no table. -/
theorem Operation.isSome_perform {migrator : Migrator} (hhooks : migrator.hooks.Take KeepsTables)
    (operation : Operation) {world : World} {name : String}
    (hthere : (world.database.table? name).isSome) :
    (((operation.perform migrator).run.run world).2.database.table? name).isSome := by
  rw [perform_eq_holding]
  by_cases hheld : migrator.settings.lockKey ∈ world.database.locks
  · rwa [(run_holding_of_held hheld _).1]
  · rw [(run_holding_of_free hheld _).1]
    dsimp only
    rw [table?_returned]
    refine Procedure.isSome_run (operation.takes_work ordinary_keepsTables hhooks) ?_
    rwa [table?_taken]

namespace Operation

variable {migrator : Migrator} {operation : Operation} {world : World} {plan : Plan}
  {onAbort : Option String}

/-- A plan can only be made when the database can be asked. -/
theorem reachable_of_decision (h : operation.decision migrator world = .ok (.run plan onAbort)) :
    world.database.unreachable = false := by
  have hchanges : ∀ {changes : List Change}, migrator.changesIn world = .ok changes →
      world.database.unreachable = false := by
    intro changes hread
    unfold Migrator.changesIn at hread
    split at hread
    · cases hread
    · exact Bool.eq_false_iff.mpr ‹_›
  have hplan : ∀ {direction : Direction} {target : Target},
      runDecision migrator world (migrator.planIn direction target world) =
        .ok (.run plan onAbort) → world.database.unreachable = false := by
    intro direction target hrun
    obtain ⟨_, hplan, -⟩ := bind_eq_ok.mp hrun
    obtain ⟨_, -, hplan⟩ := bind_eq_ok.mp hplan
    obtain ⟨_, hread, -⟩ := bind_eq_ok.mp hplan
    exact hchanges hread
  cases operation with
  | up target => exact hplan h
  | down target => exact hplan h
  | version id =>
    obtain ⟨_, hplan, -⟩ := bind_eq_ok.mp h
    obtain ⟨_, -, hplan⟩ := bind_eq_ok.mp hplan
    split at hplan
    · cases hplan
    · obtain ⟨_, hread, -⟩ := bind_eq_ok.mp hplan
      exact hchanges hread
  | bootstrap force =>
    -- bootstrapping runs a script or is idle, and has no plan
    have hscript : (migrator.folder.bootstrap? world.home >>= fun text? =>
        (.ok (bootstrapDecision text?) : Except Failure Decision)) ≠ .ok (.run plan onAbort) := by
      intro hrun
      obtain ⟨text?, -, hrun⟩ := bind_eq_ok.mp hrun
      cases text? <;> cases hrun
    cases force with
    | true => exact absurd h hscript
    | false =>
      obtain ⟨there, -, h⟩ := bind_eq_ok.mp h
      cases there with
      | true => cases h
      | false => exact absurd h hscript

/-- What becomes of the world when a decided run is done is what its execution leaves behind. -/
theorem run_perform_run (plan : Plan) (onAbort : Option String) (world : World) :
    (((Decision.run plan onAbort).perform migrator).run.run world).2 =
      (((migrator.runner onAbort).execute plan).run world).2 := by
  unfold Decision.perform Runner.run
  rw [ExceptT.run_map, map_eq_pure_bind, Procedure.run_bind, ExceptT.run_mk, Procedure.run_bind]
  rfl

/-- An operation that runs a plan upwards with something to do leaves the table of its ledger
behind. -/
theorem isSome_perform_of_decision (hhooks : migrator.hooks.Take KeepsTables)
    (hfree : migrator.settings.lockKey ∉ world.database.locks)
    (hdecision : operation.decision migrator world = .ok (.run plan onAbort))
    (hup : plan.direction = .up) (hbusy : plan.isEmpty = false) :
    (((operation.perform migrator).run.run world).2.database.table?
      migrator.settings.changelogTable).isSome := by
  have hwork := @work_of_decision migrator operation (taken migrator.settings.lockKey world)
  rw [decision_taken, hdecision] at hwork
  rw [perform_eq_holding, (run_holding_of_free hfree _).1, hwork.1]
  dsimp only
  rw [table?_returned, run_perform_run]
  have hreach : (taken migrator.settings.lockKey world).database.unreachable = false := by
    rw [unreachable_taken]
    exact reachable_of_decision hdecision
  exact @Runner.isSome_execute (migrator.runner onAbort) plan _ hhooks hup hbusy hreach

end Operation

/-! ## Worlds with a ledger -/

/-- The ledger of a table was created in the past: a run upwards with something to do got past that,
and then came only operations, commits of other transactions, and changes that drop no ledger table.
A database offers nothing that drops one. -/
inductive HasLedger (table : String) : World → Prop where
  /-- A run that is still going on has just made sure of its ledger. -/
  | ensure {ledger : Ledger} {world after : World} (htable : ledger.table = table)
    (hensure : ledger.ensure.run.run world = (.ok (), after)) : HasLedger table after
  /-- An operation comes to a run upwards, and ends, with its scripts or without them. -/
  | run {migrator : Migrator} {operation : Operation} {world : World} {plan : Plan}
    {onAbort : Option String} (htable : migrator.settings.changelogTable = table)
    (hhooks : migrator.hooks.Take KeepsTables)
    (hfree : migrator.settings.lockKey ∉ world.database.locks)
    (hdecision : operation.decision migrator world = .ok (.run plan onAbort))
    (hup : plan.direction = .up) (hbusy : plan.isEmpty = false) :
    HasLedger table ((operation.perform migrator).run.run world).2
  /-- A plan upwards is executed without the lock. -/
  | execute {runner : Runner} {plan : Plan} {world : World} (htable : runner.ledger.table = table)
    (hhooks : runner.hooks.Take KeepsTables) (hup : plan.direction = .up)
    (hbusy : plan.isEmpty = false) (hreach : world.database.unreachable = false) :
    HasLedger table ((runner.execute plan).run world).2
  | operation {migrator : Migrator} {world : World} (past : HasLedger table world)
    (hhooks : migrator.hooks.Take KeepsTables) (operation : Operation) :
    HasLedger table ((operation.perform migrator).run.run world).2
  | commit {world : World} (past : HasLedger table world) (tx : Transaction) :
    HasLedger table { world with database := tx.commit world.database }
  | other {world after : World} (past : HasLedger table world)
    (hkept : ∀ name, (world.database.table? name).isSome →
      (after.database.table? name).isSome) : HasLedger table after

/-- In all these worlds the table is there. -/
theorem HasLedger.isSome {table : String} {world : World} (h : HasLedger table world) :
    (world.database.table? table).isSome := by
  induction h with
  | ensure htable hensure =>
    rw [← htable]
    exact Ledger.isSome_of_ensure hensure
  | run htable hhooks hfree hdecision hup hbusy =>
    rw [← htable]
    exact Operation.isSome_perform_of_decision hhooks hfree hdecision hup hbusy
  | execute htable hhooks hup hbusy hreach =>
    rw [← htable]
    exact Runner.isSome_execute hhooks hup hbusy hreach
  | operation past hhooks operation ih => exact operation.isSome_perform hhooks ih
  | commit past tx ih => exact tx.isSome_commit ih
  | other past hkept ih => exact hkept table ih

/-! ## What bootstrapping does -/

/-- The world with more statements in the log of its database. -/
def World.logged (world : World) (statements : List String) : World :=
  { world with database := { world.database with log := world.database.log ++ statements } }

@[simp] theorem World.logged_nil (world : World) : world.logged [] = world := by
  simp [logged]

namespace RunLock

variable {key : Int64} {world : World}

/-- The locks that are held after work under the lock of a key: a lock that was free is free again,
unless it cannot be given back. -/
def locksAfter (key : Int64) (db : Database) : List Int64 :=
  if db.lockStuck = true ∧ key ∉ db.locks then db.locks ++ [key] else db.locks

/-- A lock that was free is given back after statements were logged. -/
theorem returned_logged (hfree : key ∉ world.database.locks) (statements : List String) :
    returned key ((taken key world).logged statements) =
      let after := world.logged statements
      { after with database := { after.database with
        locks := locksAfter key world.database } } := by
  have hlogged : ((taken key world).logged statements).database.locks =
      world.database.locks ++ [key] := locks_taken hfree
  have hstuck : ((taken key world).logged statements).database.lockStuck =
      world.database.lockStuck := lockStuck_taken key world
  have hlocks : (returned key ((taken key world).logged statements)).database.locks =
      locksAfter key world.database := by
    unfold returned Database.unlock locksAfter
    rw [hstuck]
    by_cases hstays : world.database.lockStuck = true
    · rw [if_pos hstays, if_pos ⟨hstays, hfree⟩]
      exact hlogged
    · rw [if_neg hstays, if_neg fun h => hstays h.1]
      dsimp only
      rw [hlogged, filter_locks hfree]
  rw [returned_eq, hlocks]
  unfold World.logged
  rw [taken_eq]

end RunLock

namespace ScriptFolder

variable {folder : ScriptFolder} {home : Home} {text : String}

/-- The text of the bootstrap script as it is written. -/
def bootstrapText (folder : ScriptFolder) (home : Home) : Except Failure String :=
  Catalog.readFile home (folder.dir.join ScriptName.bootstrap) ScriptName.bootstrap

/-- There is a text to bootstrap from when the script can be read; its placeholders are filled. -/
theorem bootstrap?_eq_some :
    folder.bootstrap? home = .ok (some text) ↔
      ∃ raw, folder.bootstrapText home = .ok raw ∧ folder.scope.fill raw = text := by
  unfold bootstrap? reserved? bootstrapText
  dsimp only
  constructor
  · intro h
    split at h
    · obtain ⟨raw, hraw, heq⟩ := map_eq_ok.mp h
      exact ⟨raw, hraw, Option.some.inj heq⟩
    · cases h
  · rintro ⟨raw, hraw, rfl⟩
    have hfile : home.isFile (folder.dir.join ScriptName.bootstrap) = true := by
      unfold Catalog.readFile Home.read at hraw
      unfold Home.isFile Home.find?
      cases hfind : home.find (folder.dir.join ScriptName.bootstrap) with
      | error fault =>
        rw [hfind] at hraw
        cases hraw
      | ok node =>
        rw [hfind] at hraw
        cases node with
        | folder => cases hraw
        | file bytes runnable => rfl
    rw [if_pos hfile, hraw]
    rfl

end ScriptFolder

namespace Migrator

variable {migrator : Migrator} {world : World}

/-- What the bootstrap script comes to, and the statements of it that are committed: all of them
together, or none when one fails. -/
def scriptOutcome (migrator : Migrator) (world : World) : Except Failure Bootstrap × List String :=
  match migrator.folder.bootstrap? world.home with
  | .error failure => (.error failure, [])
  | .ok none => (.ok .noScript, [])
  | .ok (some text) =>
    let statements := migrator.settings.statementRules.statements text
    match Access.firstFault? world.database statements with
    | some fault => (.error (.database fault), [])
    | none => (.ok (.applied statements.length), statements)

/-- What bootstrapping comes to that has the lock, and the statements that it commits. -/
def bootstrapOutcome (migrator : Migrator) (force : Bool) (world : World) :
    Except Failure Bootstrap × List String :=
  if force then migrator.scriptOutcome world
  else match migrator.ledgerIn world with
    | .error failure => (.error failure, [])
    | .ok true => (.ok .ledgerExists, [])
    | .ok false => migrator.scriptOutcome world

theorem run_bootstrapScript (migrator : Migrator) (world : World) :
    let outcome := migrator.scriptOutcome world
    migrator.bootstrapScript.run.run world = (outcome.1, world.logged outcome.2) := by
  refine Ends.run_result ?_
  unfold bootstrapScript scriptOutcome
  rw [ends_bind, Access.ends_files]
  cases migrator.folder.bootstrap? world.home with
  | error failure => simp
  | ok text? =>
    cases text? with
    | none => simp
    | some text =>
      dsimp only
      rw [ends_bind, ends_adapt, Access.ends_inTransaction, ends_bind, Access.ends_executeAll]
      cases Access.firstFault? world.database
        (migrator.settings.statementRules.statements text) with
      | some fault => simp
      | none => simp [World.logged]

theorem run_runBootstrap (migrator : Migrator) (force : Bool) (world : World) :
    let outcome := migrator.bootstrapOutcome force world
    (migrator.runBootstrap force).run.run world = (outcome.1, world.logged outcome.2) := by
  rw [runBootstrap_eq]
  unfold bootstrapOutcome
  cases force with
  | true => exact migrator.run_bootstrapScript world
  | false =>
    rw [if_neg Bool.false_ne_true, if_neg Bool.false_ne_true, ExceptT.run_bind, Procedure.run_bind,
      (Operation.finds_ledger world).1]
    cases migrator.ledgerIn world with
    | error failure => simp
    | ok there =>
      cases there with
      | true => simp
      | false => exact migrator.run_bootstrapScript world

/-- The lock has no part in what bootstrapping comes to. -/
theorem bootstrapOutcome_taken (force : Bool) (key : Int64) (world : World) :
    migrator.bootstrapOutcome force (taken key world) = migrator.bootstrapOutcome force world := by
  have hscript : migrator.scriptOutcome (taken key world) = migrator.scriptOutcome world := by
    unfold scriptOutcome
    simp only [home_taken, Access.firstFault?_congr (failures_taken key world)]
  unfold bootstrapOutcome ledgerIn
  rw [hscript, unreachable_taken, table?_taken]

/-- What bootstrapping does: it is refused while the lock is held, and else it comes to its outcome,
logs the statements of that, and gives the lock back if it can. -/
theorem run_bootstrap (migrator : Migrator) (force : Bool) (world : World) :
    let key := migrator.settings.lockKey
    let outcome := migrator.bootstrapOutcome force world
    let after := world.logged outcome.2
    (migrator.bootstrap force).run.run world =
      if key ∈ world.database.locks then (.error (.concurrent key), world)
      else (outcome.1,
        { after with database := { after.database with
          locks := locksAfter key world.database } }) := by
  intro key outcome after
  unfold bootstrap underLock
  split
  · rename_i hheld
    rw [(run_holding_of_held hheld _).1]
  · rename_i hfree
    rw [(run_holding_of_free hfree _).1, run_runBootstrap, bootstrapOutcome_taken]
    exact congrArg _ (returned_logged hfree outcome.2)

/-! ## All or nothing -/

/-- The statements of the bootstrap script, from its text as it is written. -/
def bootstrapStatements (migrator : Migrator) (raw : String) : List String :=
  migrator.settings.statementRules.statements (migrator.folder.scope.fill raw)

/-- The outcome is that of a script that is applied, with all of its statements, or another one
without any statement. -/
def AllOrNothing (migrator : Migrator) (world : World)
    (outcome : Except Failure Bootstrap × List String) : Prop :=
  (∃ raw, migrator.folder.bootstrapText world.home = .ok raw ∧
    outcome = (.ok (.applied (migrator.bootstrapStatements raw).length),
      migrator.bootstrapStatements raw)) ∨
  (∀ n, outcome.1 ≠ .ok (.applied n)) ∧ outcome.2 = []

theorem allOrNothing_script : migrator.AllOrNothing world (migrator.scriptOutcome world) := by
  unfold scriptOutcome
  split
  · exact .inr ⟨fun _ h => (nomatch h), rfl⟩
  · exact .inr ⟨fun _ h => (nomatch h), rfl⟩
  · rename_i text htext
    obtain ⟨raw, hraw, rfl⟩ := ScriptFolder.bootstrap?_eq_some.mp htext
    dsimp only
    split
    · exact .inr ⟨fun _ h => (nomatch h), rfl⟩
    · exact .inl ⟨raw, hraw, rfl⟩

theorem allOrNothing_bootstrap (force : Bool) :
    migrator.AllOrNothing world (migrator.bootstrapOutcome force world) := by
  unfold bootstrapOutcome
  split
  · exact allOrNothing_script
  · split
    · exact .inr ⟨fun _ h => (nomatch h), rfl⟩
    · exact .inr ⟨fun _ h => (nomatch h), rfl⟩
    · exact allOrNothing_script

/-- What comes of a script that is there when it is to be run. -/
theorem bootstrapOutcome_of_script {force : Bool} {raw : String}
    (hfresh : force = true ∨ world.database.unreachable = false ∧
      world.database.table? migrator.settings.changelogTable = none)
    (hraw : migrator.folder.bootstrapText world.home = .ok raw) :
    (migrator.bootstrapOutcome force world).1 =
      match Access.firstFault? world.database (migrator.bootstrapStatements raw) with
      | some fault => .error (.database fault)
      | none => .ok (.applied (migrator.bootstrapStatements raw).length) := by
  have hscript : migrator.bootstrapOutcome force world = migrator.scriptOutcome world := by
    unfold bootstrapOutcome ledgerIn
    rcases hfresh with rfl | ⟨hreach, hnone⟩
    · rfl
    · rw [hreach, hnone]
      cases force <;> rfl
  rw [hscript, scriptOutcome, ScriptFolder.bootstrap?_eq_some.mpr ⟨raw, hraw, rfl⟩]
  show (match Access.firstFault? world.database (migrator.bootstrapStatements raw) with
    | some fault => _
    | none => _ : Except Failure Bootstrap × List String).1 = _
  cases Access.firstFault? world.database (migrator.bootstrapStatements raw) <;> rfl

/-! ## Where there is a ledger -/

/-- Where there is a ledger, bootstrapping that is not forced calls and executes nothing. -/
theorem calls_bootstrap
    (hthere : (world.database.table? migrator.settings.changelogTable).isSome) :
    (migrator.bootstrap false).run.calls world = [] := by
  unfold bootstrap underLock
  by_cases hheld : migrator.settings.lockKey ∈ world.database.locks
  · exact (run_holding_of_held hheld _).2
  · obtain ⟨hrun, hcalls⟩ :=
      @Operation.finds_ledger migrator (taken migrator.settings.lockKey world)
    rw [(run_holding_of_free hheld _).2, runBootstrap_eq, if_neg Bool.false_ne_true,
      ExceptT.run_bind, Procedure.calls_bind, hrun, hcalls]
    unfold ledgerIn
    rw [table?_taken, hthere]
    cases (taken migrator.settings.lockKey world).database.unreachable <;> rfl

/-- It commits nothing, and finds the ledger if it has the lock and can ask for it. -/
theorem run_bootstrap_of_ledger
    (hthere : (world.database.table? migrator.settings.changelogTable).isSome) :
    let run := (migrator.bootstrap false).run.run world
    run.2.database.log = world.database.log ∧
      (migrator.settings.lockKey ∉ world.database.locks → world.database.unreachable = false →
        run.1 = .ok .ledgerExists) := by
  have houtcome : migrator.bootstrapOutcome false world =
      (if world.database.unreachable then .error migrator.ledger.refusal else .ok .ledgerExists,
        []) := by
    unfold bootstrapOutcome ledgerIn
    rw [if_neg Bool.false_ne_true, hthere]
    cases world.database.unreachable <;> rfl
  dsimp only
  rw [run_bootstrap, houtcome]
  constructor
  · split
    · rfl
    · exact List.append_nil _
  · intro hfree hreach
    rw [if_neg hfree, hreach]
    rfl

/-! ## Bootstrapping -/

/-- Bootstrapping is all or nothing, and only for fresh databases.  Whatever the database, the
script, the variables and the failing patterns are, and whether it is forced or not: it changes
nothing but the log of the database, and keeps its lock if that cannot be given back.  The log gains
all statements of the script when the script is applied, and nothing otherwise; a script that is to
be run is applied unless one of its statements fails, and then the first of these is the failure.
Without force nothing is executed where the table of the ledger is.  Once a run upwards has created
that table, whatever operations come after it, this goes for every world, and bootstrapping finds
the ledger if it gets the lock and the database can be asked. -/
theorem bootstrap_all_or_nothing (migrator : Migrator) (world : World) :
    let key := migrator.settings.lockKey
    let table := migrator.settings.changelogTable
    let before := world.database
    let script := migrator.folder.bootstrapText world.home
    (∀ force,
      let run := (migrator.bootstrap force).run.run world
      let after := run.2.database
      run.2 = { world with database := { before with
        log := after.log, locks := locksAfter key before } } ∧
      (match run.1 with
        | .ok (.applied n) => ∃ raw, script = .ok raw ∧
            n = (migrator.bootstrapStatements raw).length ∧
            after.log = before.log ++ migrator.bootstrapStatements raw
        | _ => after.log = before.log) ∧
      (key ∉ before.locks →
        force = true ∨ before.unreachable = false ∧ before.table? table = none →
        ∀ raw, script = .ok raw →
          run.1 = match Access.firstFault? before (migrator.bootstrapStatements raw) with
            | some fault => .error (.database fault)
            | none => .ok (.applied (migrator.bootstrapStatements raw).length))) ∧
    (let run := (migrator.bootstrap false).run.run world
      let calls := (migrator.bootstrap false).run.calls world
      ((before.table? table).isSome → run.2.database.log = before.log ∧ calls = []) ∧
      (HasLedger table world →
        run.2.database.log = before.log ∧ calls = [] ∧
          (key ∉ before.locks → before.unreachable = false → run.1 = .ok .ledgerExists))) := by
  intro key table before script
  refine ⟨fun force => ?_, fun hthere => ?_, fun hledger => ?_⟩
  · dsimp only
    rw [run_bootstrap]
    by_cases hheld : key ∈ before.locks
    · rw [if_pos hheld]
      refine ⟨?_, rfl, fun hfree => absurd hheld hfree⟩
      rw [locksAfter, if_neg fun h => h.2 hheld]
    · rw [if_neg hheld]
      refine ⟨rfl, ?_, fun _ hfresh raw hraw => bootstrapOutcome_of_script hfresh hraw⟩
      rcases @allOrNothing_bootstrap migrator world force with ⟨raw, hraw, hall⟩ | ⟨hnot, hnil⟩
      · rw [hall]
        exact ⟨raw, hraw, rfl, rfl⟩
      · rw [hnil]
        dsimp only
        split
        · exact absurd ‹_› (hnot _)
        · exact List.append_nil _
  · exact ⟨(run_bootstrap_of_ledger hthere).1, calls_bootstrap hthere⟩
  · obtain ⟨hlog, hfound⟩ := @run_bootstrap_of_ledger migrator world hledger.isSome
    exact ⟨hlog, calls_bootstrap hledger.isSome, hfound⟩

/-- A bootstrap script with two statements beside one script to apply. -/
private def fresh : World where
  home := ⟨[(["scripts"], .folder),
    (["scripts", "1_first.sql"], .file "create c;".toUTF8 false),
    (["scripts", "bootstrap.sql"], .file "create a;\ncreate b;".toUTF8 false)]⟩

private def freshScripts : Catalog where
  entries := [⟨⟨1⟩, "first", "1_first.sql", .file ⟨"scripts/1_first.sql"⟩⟩]
  ascending := by decide

private theorem decision_fresh : (Operation.up .latest).decision plain fresh =
    .ok (.run ⟨.up, [⟨⟨1⟩, "first", "1_first.sql", "create c;\n", none⟩], [], []⟩ none) := by
  have hscan : plain.folder.scan fresh.home = .ok freshScripts :=
    ScriptFolder.scan_of_ascending (by rfl) (by rfl) (by rfl) freshScripts.ascending
  have hplan : Plan.make freshScripts fresh.home [] .up .latest =
      .ok ⟨.up, [⟨⟨1⟩, "first", "1_first.sql", "create c;\n", none⟩], [], []⟩ :=
    eq_ok_of_toOption (by decide +kernel)
  rw [Operation.decision, planIn, hscan]
  show Operation.runDecision _ _ (Plan.make freshScripts fresh.home [] .up .latest) = _
  rw [hplan]
  rfl

/-- The statements of the script are committed as long as there is no ledger, and after a run there
is one. -/
theorem bootstrap_all_or_nothing_fresh :
    let after := (((Operation.up .latest).perform plain).run.run fresh).2
    ((plain.bootstrap false).run.run fresh).1 = .ok (.applied 2) ∧
      ((plain.bootstrap false).run.run fresh).2.database.log = ["create a", "create b"] ∧
      ((plain.bootstrap false).run.run after).1 = .ok .ledgerExists ∧
      ((plain.bootstrap false).run.run after).2.database.log = after.database.log := by
  intro after
  have hscript : plain.folder.bootstrapText fresh.home = .ok "create a;\ncreate b;" :=
    eq_ok_of_toOption (by decide +kernel)
  have hstatements : plain.bootstrapStatements "create a;\ncreate b;" =
      ["create a", "create b"] := by decide +kernel
  have happlied : ((plain.bootstrap false).run.run fresh).1 = .ok (.applied 2) := by
    have hrun := ((bootstrap_all_or_nothing plain fresh).1 false).2.2 (by decide) (.inr ⟨rfl, rfl⟩)
      _ hscript
    rwa [hstatements] at hrun
  have hlogged := ((bootstrap_all_or_nothing plain fresh).1 false).2.1
  rw [happlied] at hlogged
  obtain ⟨raw, hraw, -, hlog⟩ := hlogged
  obtain rfl := Except.ok.inj (hscript.symm.trans hraw)
  rw [hstatements] at hlog
  have hledger : HasLedger "changelog" after :=
    @HasLedger.run _ plain _ _ _ _ rfl (Hooks.Confined.keepTables fun _ _ hfind => nomatch hfind)
      (by decide) decision_fresh rfl rfl
  obtain ⟨hquiet, -, hfound⟩ := (bootstrap_all_or_nothing plain after).2.2 hledger
  exact ⟨happlied, hlog, hfound (by decide +kernel) (by decide +kernel), hquiet⟩

/-- The script of a database whose lock cannot be given back, and whose second statement fails. -/
private def stuck : World where
  home := fresh.home
  database := { failures := ["b"], lockStuck := true }

/-- The failure is that of the statement and nothing is logged, but the lock is held. -/
theorem bootstrap_keeps_lock :
    let run := (plain.bootstrap true).run.run stuck
    run.1 = .error (.database (.statement "b" "create b")) ∧
      run.2.database.log = stuck.database.log ∧ stuck.database.locks = [] ∧
      run.2.database.locks = [plain.settings.lockKey] ∧ run.2.database ≠ stuck.database := by
  intro run
  have hlocks : run.2.database.locks = [plain.settings.lockKey] := by decide +kernel
  refine ⟨by decide +kernel, by decide +kernel, rfl, hlocks, fun hsame => ?_⟩
  rw [hsame] at hlocks
  cases hlocks

end Migrator

end Migrations

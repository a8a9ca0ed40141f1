import Migrations.Proofs.Migrator.Operation
import Migrations.Proofs.Plan
import Migrations.Proofs.Run.Interruption

/-!
# From the Ledger to a Run

What migrators plan, and what becomes of a plan, in terms of the world: the scripts and the rows of
the ledger are read as they are, and a run that succeeds has recorded all scripts of its plan on top
of those rows.

## Main statements

- `Migrator.ends_planBy`, `Migrator.ends_versionPlan`: what is planned.
- `Migrator.ends_runTarget_of_plan`, `Migrator.ends_version_of_plan`: under a lock that is free, the
  plan is executed.
- `Migrator.ends_runPlan_recorded`: what a run that succeeds has done.
-/

namespace Migrations

open Attempt RunLock

namespace Migrator

variable {migrator : Migrator} {world : World}

/-! ## The ledger -/

/-- The rows of the migrator's ledger. -/
def rows (migrator : Migrator) (world : World) : List Change :=
  Table.rowsOf (world.database.table? migrator.settings.changelogTable)

/-- The ids of the migrator's ledger. -/
def appliedIds (migrator : Migrator) (world : World) : List ChangeId :=
  world.database.appliedIds migrator.settings.changelogTable

theorem rowsOf_ledger :
    Table.rowsOf (world.database.table? migrator.ledger.table) = migrator.rows world := rfl

theorem map_id_rows : (migrator.rows world).map Change.id = migrator.appliedIds world := rfl

theorem rows_congr {other : World}
    (h : other.database.table? migrator.settings.changelogTable =
      world.database.table? migrator.settings.changelogTable) :
    migrator.rows other = migrator.rows world := by
  rw [rows, rows, h]

theorem appliedIds_congr {other : World}
    (h : other.database.table? migrator.settings.changelogTable =
      world.database.table? migrator.settings.changelogTable) :
    migrator.appliedIds other = migrator.appliedIds world := by
  rw [← map_id_rows, rows_congr h, map_id_rows]

theorem rows_ascending (migrator : Migrator) (world : World) :
    (migrator.rows world).Pairwise (fun a b => a.id < b.id) := Table.ascending _

theorem nodup_appliedIds (migrator : Migrator) (world : World) :
    (migrator.appliedIds world).Nodup := Table.nodup_ids _

theorem rows_taken (key : Int64) (world : World) :
    migrator.rows (RunLock.taken key world) = migrator.rows world :=
  rows_congr (RunLock.table?_taken key world _)

theorem rows_returned (key : Int64) (world : World) :
    migrator.rows (RunLock.returned key world) = migrator.rows world :=
  rows_congr (RunLock.table?_returned key world _)

/-- Nothing is in the way of an operation: the run lock is free and can be given back, and the
database is there. -/
structure Undisturbed (migrator : Migrator) (world : World) : Prop where
  free : migrator.settings.lockKey ∉ world.database.locks
  returnable : world.database.lockStuck = false
  reach : world.database.unreachable = false

/-- A migrator with the usual settings and without hooks. -/
def plain : Migrator where
  layout := .below ⟨""⟩
  settings := {}
  folder := { dir := ⟨"scripts"⟩ }
  hooks := { layout := default }

/-! ## What is pending -/

section Pending

variable {catalog : Catalog} {scripts : List Script}
  (hscan : migrator.folder.scan world.home = .ok catalog)
  (hpending : catalog.loadAll world.home (catalog.pendingEntries (migrator.rows world)) =
    .ok scripts)

include hscan hpending

theorem ids_pending : scripts.map Script.id =
    (catalog.pendingEntries (migrator.rows world)).map ScriptEntry.id :=
  Catalog.loadAll_ids (fun entry hmem => ScriptFolder.onFiles_scan hscan entry
    (Catalog.mem_pendingEntries.mp hmem).1) hpending

/-- The pending scripts are in the order of their ids. -/
theorem pending_ascending : (scripts.map Script.id).Pairwise (· < ·) := by
  rw [ids_pending hscan hpending]
  exact List.pairwise_map.mpr Catalog.pendingEntries_ascending

/-- The pending scripts are those of the catalog that are not applied. -/
theorem mem_pending_ids (id : ChangeId) :
    id ∈ scripts.map Script.id ↔ id ∈ catalog.ids ∧ id ∉ migrator.appliedIds world := by
  rw [ids_pending hscan hpending]
  constructor
  · intro hid
    obtain ⟨entry, hentry, rfl⟩ := List.mem_map.mp hid
    obtain ⟨hmem, hnew⟩ := Catalog.mem_pendingEntries.mp hentry
    exact ⟨List.mem_map_of_mem hmem, hnew⟩
  · rintro ⟨hid, hnew⟩
    obtain ⟨entry, hentry, rfl⟩ := List.mem_map.mp hid
    exact List.mem_map_of_mem (Catalog.mem_pendingEntries.mpr ⟨hentry, hnew⟩)

end Pending

/-! ## Plans -/

/-- A plan follows from the scripts and the rows of the ledger, which are read in this order. -/
theorem ends_planBy {rule : Catalog → Home → List Change → Except Failure Plan}
    {ok : Plan → World → Prop} {error : Failure → World → Prop} :
    Ends (migrator.planBy rule) world ok error ↔
      match migrator.folder.scan world.home with
      | .error failure => error failure world
      | .ok catalog =>
        if world.database.unreachable then error migrator.ledger.refusal world
        else match rule catalog world.home (migrator.rows world) with
          | .ok plan => ok plan world
          | .error failure => error failure world := by
  -- the world is the same at every step, because all of them only look
  rw [planBy, ends_bind, catalog, Access.ends_files]
  cases migrator.folder.scan world.home with
  | error failure => rfl
  | ok catalog =>
    dsimp only
    rw [ends_bind, Ledger.ends_changes]
    split
    · rfl
    · rw [Access.ends_files, rowsOf_ledger]
      cases rule catalog world.home (migrator.rows world) <;> rfl

theorem ends_versionPlan {id : ChangeId} {ok : Plan → World → Prop}
    {error : Failure → World → Prop} :
    Ends (Operation.versionPlan migrator id) world ok error ↔
      match migrator.folder.scan world.home with
      | .error failure => error failure world
      | .ok catalog =>
        if !catalog.contains id then error (.unknownVersion id) world
        else if world.database.unreachable then error migrator.ledger.refusal world
        else match Plan.toVersion catalog world.home (migrator.rows world) id with
          | .ok plan => ok plan world
          | .error failure => error failure world := by
  rw [Operation.versionPlan, ends_bind, catalog, Access.ends_files]
  cases migrator.folder.scan world.home with
  | error failure => rfl
  | ok catalog =>
    dsimp only
    split
    · rfl
    · rw [ends_bind, Ledger.ends_changes]
      split
      · rfl
      · rw [Access.ends_files, rowsOf_ledger]
        cases Plan.toVersion catalog world.home (migrator.rows world) id <;> rfl

/-- A plan suits the ledger that it is made from. -/
theorem ends_plan (direction : Direction) (target : Target) :
    Ends (migrator.plan direction target) world
      (fun plan after => after = world ∧ plan.Suits (migrator.appliedIds world))
      (fun _ after => after = world) := by
  rw [plan, ends_planBy]
  split
  · rfl
  · rename_i catalog hscan
    split
    · rfl
    · split
      · rename_i plan hplan
        exact ⟨rfl, Plan.suits_make (ScriptFolder.onFiles_scan hscan)
          (migrator.nodup_appliedIds world) hplan⟩
      · rfl

theorem ends_versionPlan_suits (id : ChangeId) :
    Ends (Operation.versionPlan migrator id) world
      (fun plan after => after = world ∧ plan.Suits (migrator.appliedIds world))
      (fun _ after => after = world) := by
  rw [ends_versionPlan]
  split
  · rfl
  · rename_i catalog hscan
    split
    · rfl
    · split
      · rfl
      · split
        · rename_i plan hplan
          exact ⟨rfl, Plan.suits_toVersion (ScriptFolder.onFiles_scan hscan)
            (migrator.nodup_appliedIds world) hplan⟩
        · rfl

/-! ## Runs -/

theorem ends_runPlan {plan : Plan} {ok : Report → World → Prop} {error : Failure → World → Prop} :
    Ends (migrator.runPlan plan) world ok error ↔
      match migrator.folder.onAbort? world.home with
      | .error failure => error failure world
      | .ok onAbort => Ends ((migrator.runner onAbort).run plan) world ok error := by
  rw [runPlan, ends_bind, Access.ends_files]
  cases migrator.folder.onAbort? world.home <;> rfl

/-- A plan without scripts changes nothing. -/
theorem ends_runPlan_idle {plan : Plan} {onAbort : Option String} {ok : Report → World → Prop}
    {error : Failure → World → Prop} (habort : migrator.folder.onAbort? world.home = .ok onAbort)
    (hidle : plan.scripts = []) :
    Ends (migrator.runPlan plan) world ok error ↔
      ok ⟨plan.direction, [], plan.warnings⟩ world := by
  have hempty : plan.isEmpty = true := List.isEmpty_iff.mpr hidle
  rw [ends_runPlan, habort]
  dsimp only
  rw [Runner.ends_run, if_pos hempty]

/-- A run that succeeds has recorded the scripts of its plan on top of the rows that were there. -/
theorem ends_runPlan_recorded (plan : Plan)
    (hhooks : migrator.hooks.KeepLedger migrator.settings.changelogTable) :
    Ends (migrator.runPlan plan) world
      (fun report after => report.committed = plan.ids ∧
        (∃ onAbort, migrator.folder.onAbort? world.home = .ok onAbort) ∧
        ∃ base, Table.rowsOf base = migrator.rows world ∧
          Runner.Recorded plan.direction plan.scripts base
            (after.database.table? migrator.settings.changelogTable))
      (fun _ _ => True) := by
  rw [ends_runPlan]
  split
  · trivial
  · rename_i onAbort habort
    refine (@Runner.ends_run_recorded (migrator.runner onAbort) world plan hhooks).mono
      (fun report after h => ?_) fun _ _ h => h
    exact ⟨h.1, ⟨onAbort, habort⟩, h.2⟩

/-- A plan whose scripts are ready is interrupted, or else its run succeeds. -/
theorem ends_runPlan_ready {plan : Plan} {onAbort : Option String}
    (hhooks : migrator.hooks.KeepLedger migrator.settings.changelogTable)
    (habort : migrator.folder.onAbort? world.home = .ok onAbort)
    (hready : (migrator.runner onAbort).Ready plan.direction plan.scripts {}
      ((migrator.runner onAbort).start plan world)) :
    Ends (migrator.runPlan plan) world (fun _ _ => True)
      (fun failure after => failure.Interrupts migrator.hooks after.database) := by
  rw [ends_runPlan, habort]
  exact Runner.ends_run_ready hhooks hready

/-- A run that succeeds had the scripts, the rows and the abort script at hand that it needs, and
has recorded the scripts of its plan. -/
theorem ends_runTarget_recorded (direction : Direction) (target : Target)
    (hhooks : migrator.hooks.KeepLedger migrator.settings.changelogTable) :
    Ends (migrator.runTarget direction target) world
      (fun report after => ∃ catalog plan, migrator.folder.scan world.home = .ok catalog ∧
        Plan.make catalog world.home (migrator.rows world) direction target = .ok plan ∧
        report.committed = plan.ids ∧
        (∃ onAbort, migrator.folder.onAbort? world.home = .ok onAbort) ∧
        ∃ base, Table.rowsOf base = migrator.rows world ∧
          Runner.Recorded plan.direction plan.scripts base
            (after.database.table? migrator.settings.changelogTable))
      (fun _ _ => True) := by
  -- a failure of the scan, of the ledger or of the plan leaves nothing to show
  rw [runTarget, ends_bind, Migrator.plan, ends_planBy]
  split
  · trivial
  · rename_i catalog hscan
    split
    · trivial
    · split
      · rename_i plan hplan
        exact (ends_runPlan_recorded plan hhooks).mono
          (fun report after h => ⟨catalog, plan, hscan, hplan, h⟩) fun _ _ h => h
      · trivial

/-- What is done under the lock is done to the same scripts and tables. -/
theorem ends_underLock {α : Type} {work : Attempt Failure α} {ok : α → World → Prop}
    {error : Failure → World → Prop} (hfree : migrator.settings.lockKey ∉ world.database.locks) :
    Ends (migrator.underLock work) world ok error ↔
      Ends work (RunLock.taken migrator.settings.lockKey world)
        (fun a after => ok a (RunLock.returned migrator.settings.lockKey after))
        (fun failure after => error failure
          (RunLock.returned migrator.settings.lockKey after)) := by
  rw [underLock, RunLock.ends_holding,
    if_neg fun hheld => hfree (List.contains_iff_mem.mp hheld)]

/-- A run upwards under the lock that succeeds has recorded the scripts of its plan, too. -/
theorem ends_up_recorded {target : Target}
    (hhooks : migrator.hooks.KeepLedger migrator.settings.changelogTable) :
    Ends (migrator.up target) world
      (fun report after => ∃ catalog plan, migrator.folder.scan world.home = .ok catalog ∧
        Plan.make catalog world.home (migrator.rows world) .up target = .ok plan ∧
        report.committed = plan.ids ∧
        (∃ onAbort, migrator.folder.onAbort? world.home = .ok onAbort) ∧
        ∃ base, Table.rowsOf base = migrator.rows world ∧
          Runner.Recorded plan.direction plan.scripts base
            (after.database.table? migrator.settings.changelogTable))
      (fun _ _ => True) := by
  by_cases hheld : migrator.settings.lockKey ∈ world.database.locks
  · rw [up, underLock, RunLock.ends_holding, if_pos (List.contains_iff_mem.mpr hheld)]
    trivial
  · rw [up, ends_underLock hheld]
    refine (ends_runTarget_recorded .up target hhooks).mono (fun report after h => ?_)
      fun _ _ _ => trivial
    -- taking the lock and giving it back changes no files and no tables
    rw [RunLock.home_taken, rows_taken] at h
    rwa [RunLock.table?_returned]

/-! ## Operations -/

section Operations

variable {catalog : Catalog} {plan : Plan} {ok : Report → World → Prop}
  {error : Failure → World → Prop} (hfree : migrator.settings.lockKey ∉ world.database.locks)
  (hreach : world.database.unreachable = false)
  (hscan : migrator.folder.scan world.home = .ok catalog)

include hfree hreach hscan

/-- A run upwards or downwards executes its plan while the lock is held. -/
theorem ends_runTarget_of_plan {direction : Direction} {target : Target}
    (hplan : Plan.make catalog world.home (migrator.rows world) direction target = .ok plan) :
    Ends (migrator.underLock (migrator.runTarget direction target)) world ok error ↔
      Ends (migrator.runPlan plan) (RunLock.taken migrator.settings.lockKey world)
        (fun report after => ok report (RunLock.returned migrator.settings.lockKey after))
        (fun failure after => error failure
          (RunLock.returned migrator.settings.lockKey after)) := by
  rw [ends_underLock hfree, runTarget, ends_bind, Migrator.plan, ends_planBy, home_taken,
    rows_taken, hscan]
  simp only [unreachable_taken, hreach, Bool.false_eq_true, if_false, hplan]

theorem ends_version_of_plan {id : ChangeId} (hid : id ∈ catalog.ids)
    (hplan : Plan.toVersion catalog world.home (migrator.rows world) id = .ok plan) :
    Ends (migrator.version id) world ok error ↔
      Ends (migrator.runPlan plan) (RunLock.taken migrator.settings.lockKey world)
        (fun report after => ok report (RunLock.returned migrator.settings.lockKey after))
        (fun failure after => error failure
          (RunLock.returned migrator.settings.lockKey after)) := by
  rw [version, ends_underLock hfree, Operation.runVersion_eq, ends_bind, ends_versionPlan,
    home_taken, rows_taken, hscan]
  simp only [Catalog.contains_iff.mpr hid, unreachable_taken, hreach, Bool.not_true,
    Bool.false_eq_true, if_false, hplan]

end Operations

end Migrator

end Migrations

import Migrations.Proofs.Migrator.Planning
import Migrations.Proofs.Run.Ledger

/-!
# Histories of a Ledger

Whatever operations are asked for, one after the other and with any changes to the files and the
database between them, no change is applied twice or undone twice: the committed executions of its
script alternate, and the ledger holds the change exactly when the last of them went upwards.

## Main statements

- `Operation.ends_account`: one operation applies changes that are not in the ledger, or undoes
  changes that are, each of them once.
- `History.alternates`: what follows for any number of operations.
-/

namespace Migrations

open Attempt

/-! ## One operation -/

/-- The executions go in one direction, each change is executed once and could be executed in that
direction, and the ids of the ledger are moved accordingly. -/
def Executed (executions : List (ChangeId × Direction)) (before after : List ChangeId) : Prop :=
  ∃ (direction : Direction) (done : List ChangeId),
    executions = done.map (fun id => (id, direction)) ∧ done.Nodup ∧
      (∀ id ∈ done, id ∈ before ↔ direction = .down) ∧ direction.Moves done before after

theorem Executed.nothing {before after : List ChangeId} (h : after = before) :
    Executed [] before after := by
  refine ⟨.up, [], rfl, List.nodup_nil, by simp, ?_⟩
  rw [h]
  exact .nil .up before

namespace Migrator

variable {migrator : Migrator} {world : World}

/-- The execution of a plan that suits the ledger. -/
theorem ends_runAccount {plan : Attempt Failure Plan}
    (hhooks : migrator.hooks.KeepLedger migrator.settings.changelogTable)
    (hplan : Ends plan world
      (fun plan after => after = world ∧ plan.Suits (migrator.appliedIds world))
      (fun _ after => after = world)) :
    Ends (Operation.runAccount migrator plan) world
      (fun account after => Executed account.1 (migrator.appliedIds world)
        (migrator.appliedIds after))
      (fun _ after => migrator.appliedIds after = migrator.appliedIds world) := by
  unfold Operation.runAccount execute
  simp only [ends_bind]
  refine hplan.mono (fun plan now h => ?_) fun _ _ h => h ▸ rfl
  obtain ⟨rfl, hsuits⟩ := h
  rw [Access.ends_files]
  split
  · rename_i onAbort _
    rw [ends_lift]
    obtain ⟨hdirection, hdone, hmoves⟩ :=
      @Runner.run_execute_moves (migrator.runner onAbort) now plan hhooks
    -- what is committed is a first part of a plan that suits the ledger, so it suits it, too
    refine ⟨plan.direction, _, ?_, hsuits.nodup.sublist hdone.sublist,
      fun id hid => hsuits.side id (hdone.subset hid), hmoves⟩
    rw [Operation.executionsOf, hdirection]
  · rfl

theorem ends_bootstrapScript :
    Ends migrator.bootstrapScript world
      (fun _ after => migrator.appliedIds after = migrator.appliedIds world)
      (fun _ after => migrator.appliedIds after = migrator.appliedIds world) := by
  unfold bootstrapScript
  rw [ends_bind, Access.ends_files]
  cases migrator.folder.bootstrap? world.home with
  | error failure => rfl
  | ok text? =>
    cases text? with
    | none => rfl
    | some text =>
      dsimp only
      rw [ends_bind, ends_adapt, Access.ends_inTransaction, ends_bind, Access.ends_executeAll]
      split
      -- the script has statements, which reach the log and no table
      · simp only [ends_pure, appliedIds, Transaction.commit_withStatements]
        rfl
      · rfl

/-- Bootstrapping leaves the ledger alone. -/
theorem ends_runBootstrap (force : Bool) :
    Ends (migrator.runBootstrap force) world
      (fun _ after => migrator.appliedIds after = migrator.appliedIds world)
      (fun _ after => migrator.appliedIds after = migrator.appliedIds world) := by
  rw [runBootstrap_eq]
  cases force with
  | true => exact ends_bootstrapScript
  | false =>
    rw [if_neg (by simp), ends_bind, Ledger.ends_isThere]
    split
    · rfl
    · split
      · rfl
      · exact ends_bootstrapScript

end Migrator

/-- An operation applies changes that are not in the ledger or undoes changes that are, each of them
once; when it is refused it executes nothing. -/
theorem Operation.ends_account {migrator : Migrator} {world : World} (operation : Operation)
    (hhooks : migrator.hooks.KeepLedger migrator.settings.changelogTable) :
    Ends (operation.account migrator) world
      (fun account after => Executed account.1 (migrator.appliedIds world)
        (migrator.appliedIds after))
      (fun _ after => migrator.appliedIds after = migrator.appliedIds world) := by
  unfold account Migrator.underLock
  rw [RunLock.ends_holding]
  split
  · rfl
  -- the lock is no part of the ledger, so its ids are compared under the lock
  · have htaken : migrator.appliedIds (RunLock.taken migrator.settings.lockKey world) =
        migrator.appliedIds world := Migrator.appliedIds_congr (RunLock.table?_taken _ _ _)
    have hreturned : ∀ after, migrator.appliedIds
        (RunLock.returned migrator.settings.lockKey after) = migrator.appliedIds after :=
      fun after => Migrator.appliedIds_congr (RunLock.table?_returned _ after _)
    simp only [hreturned, ← htaken]
    cases operation with
    | up target => exact Migrator.ends_runAccount hhooks (Migrator.ends_plan _ _)
    | down target => exact Migrator.ends_runAccount hhooks (Migrator.ends_plan _ _)
    | version id => exact Migrator.ends_runAccount hhooks (Migrator.ends_versionPlan_suits _)
    | bootstrap force =>
      simp only [ends_bind, ends_pure]
      exact (Migrator.ends_runBootstrap force).mono (fun _ _ h => .nothing h) fun _ _ h => h

/-! ## Histories -/

/-- The executions of an operation that were committed, those of a run that fails included. -/
def Operation.executions (operation : Operation) (migrator : Migrator) (world : World) :
    List (ChangeId × Direction) :=
  match ((operation.account migrator).run.run world).1 with
  | .ok (executions, _) => executions
  | .error _ => []

/-- The hooks of a migrator that is made from settings write no rows of any ledger table. -/
theorem Migrator.keepLedger_make {home : Home} {layout : Layout} {settings : Settings}
    {migrator : Migrator} (h : Migrator.make home layout settings = .ok migrator) (table : String) :
    migrator.hooks.KeepLedger table :=
  Hooks.keepLedger_ofSettings (Migrator.hooks_make h) table

/-- A world that came about from one with the given ids in a ledger table, and the executions that
were committed on the way.  Between the operations anything can happen but to the ids of the
table. -/
inductive History (table : String) (initial : List ChangeId) :
    World → List (ChangeId × Direction) → Prop where
  | start {world : World} (h : world.database.appliedIds table = initial) :
    History table initial world []
  | change {world next : World} {executions : List (ChangeId × Direction)}
    (past : History table initial world executions)
    (h : next.database.appliedIds table = world.database.appliedIds table) :
    History table initial next executions
  | operate {world : World} {executions : List (ChangeId × Direction)}
    (past : History table initial world executions) (operation : Operation)
    (migrator : Migrator) (htable : migrator.settings.changelogTable = table)
    (hhooks : migrator.hooks.KeepLedger table) :
    History table initial ((operation.perform migrator).run.run world).2
      (executions ++ operation.executions migrator world)

/-- The directions in which a change was executed, in order. -/
def directionsOf (id : ChangeId) (executions : List (ChangeId × Direction)) : List Direction :=
  (executions.filter (fun execution => execution.1 = id)).map Prod.snd

/-- The directions alternate, and the first one is downwards exactly for a change that is
applied. -/
def Alternate : Bool → List Direction → Prop
  | _, [] => True
  | applied, direction :: rest => direction.isUp = !applied ∧ Alternate direction.isUp rest

/-- Whether a change is applied after executions in these directions. -/
def appliedAfter (applied : Bool) (directions : List Direction) : Bool :=
  match directions.getLast? with
  | some direction => direction.isUp
  | none => applied

theorem appliedAfter_concat (applied : Bool) (directions : List Direction)
    (direction : Direction) :
    appliedAfter applied (directions ++ [direction]) = direction.isUp := by
  rw [appliedAfter, List.getLast?_concat]

theorem alternate_concat {applied : Bool} {directions : List Direction} {direction : Direction}
    (h : Alternate applied directions)
    (hlast : direction.isUp = !appliedAfter applied directions) :
    Alternate applied (directions ++ [direction]) := by
  induction directions generalizing applied with
  | nil => exact ⟨hlast, trivial⟩
  | cons first rest ih =>
    -- what comes last of all comes last of the rest, unless there is no rest
    refine ⟨h.1, ih h.2 ?_⟩
    rw [hlast, appliedAfter, appliedAfter, List.getLast?_cons]
    cases rest.getLast? <;> rfl

theorem directionsOf_append (id : ChangeId) (executions more : List (ChangeId × Direction)) :
    directionsOf id (executions ++ more) = directionsOf id executions ++ directionsOf id more := by
  simp [directionsOf]

/-- A change that is executed once in an operation. -/
theorem directionsOf_map (id : ChangeId) (direction : Direction) {done : List ChangeId}
    (hnodup : done.Nodup) :
    directionsOf id (done.map fun id => (id, direction)) =
      if id ∈ done then [direction] else [] := by
  induction done with
  | nil => rfl
  | cons first rest ih =>
    obtain ⟨hfirst, hrest⟩ := List.nodup_cons.mp hnodup
    have htail := ih hrest
    unfold directionsOf at htail ⊢
    rw [List.map_cons, List.filter_cons]
    -- the change is the first one, and then it is not among the rest, or it is not
    by_cases heq : first = id
    · subst heq
      rw [if_neg hfirst] at htail
      simp [htail]
    · simp [heq, Ne.symm heq, htail]

/-- What the operation executes moves the ids of its ledger. -/
theorem Operation.executed (operation : Operation) {migrator : Migrator} {world : World}
    (hhooks : migrator.hooks.KeepLedger migrator.settings.changelogTable) :
    Executed (operation.executions migrator world) (migrator.appliedIds world)
      (migrator.appliedIds ((operation.perform migrator).run.run world).2) := by
  have hends := @Operation.ends_account migrator world operation hhooks
  rw [Operation.perform_eq_account, ExceptT.run_bind, Procedure.run_bind]
  unfold executions
  -- an operation that is refused has no account; one that fails in its run has
  rcases hrun : (operation.account migrator).run.run world with
    ⟨failure | ⟨executions, answer⟩, after⟩
  · exact .nothing (hends.of_error hrun)
  · have hexecuted := hends.of_ok hrun
    cases answer with
    | error failure => exact hexecuted
    | ok answer => exact hexecuted

/-- The executions of a change alternate in their directions over any history, the first one being
downwards when the change was in the ledger at the start and upwards when it was not; and at any
time the change is in the ledger exactly when its last execution was upwards, or when there was none
and it was in the ledger at the start. -/
theorem History.alternates {table : String} {initial : List ChangeId} {world : World}
    {executions : List (ChangeId × Direction)} (h : History table initial world executions)
    (id : ChangeId) :
    Alternate (decide (id ∈ initial)) (directionsOf id executions) ∧
      (id ∈ world.database.appliedIds table ↔
        appliedAfter (decide (id ∈ initial)) (directionsOf id executions) = true) := by
  induction h with
  | start h =>
    rw [h]
    exact ⟨trivial, by simp [directionsOf, appliedAfter]⟩
  | change past h ih =>
    rw [h]
    exact ih
  | @operate world executions past operation migrator htable hhooks ih =>
    obtain ⟨halternate, hmember⟩ := ih
    subst htable
    obtain ⟨direction, done, hexecutions, hnodup, hside, hmoves⟩ :=
      @Operation.executed operation migrator world hhooks
    have hid := hmoves id
    change id ∈ Database.appliedIds _ _ ↔ _ at hid
    rw [directionsOf_append, hexecutions, directionsOf_map id direction hnodup, hid]
    -- a change that was executed went to the other side; every other one stayed where it was
    by_cases hdone : id ∈ done
    · rw [if_pos hdone, appliedAfter_concat]
      have hbefore := (hside id hdone).symm.trans hmember
      refine ⟨alternate_concat halternate ?_, ?_⟩
      · cases direction <;> simp_all [Direction.isUp]
      · cases direction <;> simp [hdone, Direction.isUp]
    · rw [if_neg hdone, List.append_nil, ← hmember]
      refine ⟨halternate, ?_⟩
      cases direction <;> simp [hdone, Migrator.appliedIds]

/-- A world with one script, which can be undone. -/
private def oneScript : World where
  home := ⟨[(["scripts"], .folder),
    (["scripts", "1_first.sql"], .file "create a;\n-- //@UNDO\ndrop a;".toUTF8 false)]⟩

/-- A migrator without hooks. -/
private def plainMigrator : Migrator where
  layout := .below ⟨""⟩
  settings := {}
  folder := { dir := ⟨"scripts"⟩ }
  hooks := { layout := default }

/-- The script is applied and undone. -/
theorem History.alternates_oneScript :
    let up := Operation.up .latest
    let down := Operation.down .latest
    let applied := ((up.perform plainMigrator).run.run oneScript).2
    let executions := up.executions plainMigrator oneScript ++
      down.executions plainMigrator applied
    executions = [(⟨1⟩, .up), (⟨1⟩, .down)] ∧ Alternate false (directionsOf ⟨1⟩ executions) := by
  intro up down applied executions
  have hhooks : ∀ table, plainMigrator.hooks.KeepLedger table :=
    fun table slot hook hfind => by cases hfind
  have hstart : History "changelog" [] oneScript [] := .start rfl
  have hup := hstart.operate up plainMigrator rfl (hhooks _)
  have hdown := hup.operate down plainMigrator rfl (hhooks _)
  exact ⟨by decide +kernel, (hdown.alternates ⟨1⟩).1⟩

end Migrations

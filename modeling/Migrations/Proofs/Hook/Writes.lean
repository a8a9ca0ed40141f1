import Migrations.Proofs.Database.View
import Migrations.Proofs.Hook.Setting
import Migrations.Proofs.Hook.Work

/-!
# What Hooks Write

A hook can add writes of its own to the transaction that it is given, but it takes none back.  Hooks
of the process can do more than that, because they can reach the database past the transaction; a
hook that acts through its transaction leaves tables and log alone until its owner commits it.

## Main statements

- `HookWork.ends_perform_writes`: work through a transaction adds writes to it.
- `Hooks.keepWrites_ofSettings`: the hooks of settings take no writes back.
- `Hooks.writeThrough_ofSettings`: the hooks of settings write through their transactions alone.
-/

namespace Migrations

open Attempt

/-! ## Tables and log -/

namespace Database

/-- What a database holds, apart from its locks and the circumstances under which it answers. -/
def content (db : Database) : List (String × Table) × List String := (db.tables, db.log)

theorem content_eq {db other : Database} :
    db.content = other.content ↔ db.tables = other.tables ∧ db.log = other.log := by
  rw [content, content, Prod.mk.injEq]

end Database

/-- What a write makes of the content of a database depends on nothing but that content. -/
theorem Write.content_apply {db other : Database} (h : db.content = other.content)
    (write : Write) : (write.apply db).content = (write.apply other).content := by
  obtain ⟨htables, hlog⟩ := Database.content_eq.mp h
  have htable : ∀ name, db.table? name = other.table? name := by
    intro name
    rw [Database.table?, Database.table?, htables]
  cases write with
  | statement sql =>
    refine Database.content_eq.mpr ⟨htables, ?_⟩
    show db.log ++ [sql] = other.log ++ [sql]
    rw [hlog]
  | insert name row =>
    refine Database.content_eq.mpr ⟨?_, hlog⟩
    show Database.putTable name _ db.tables = Database.putTable name _ other.tables
    rw [htable, htables]
  | delete name id =>
    rw [apply, apply, Database.eraseRow, Database.eraseRow, htable]
    cases other.table? name with
    | none => exact h
    | some table =>
      refine Database.content_eq.mpr ⟨?_, hlog⟩
      show Database.putTable name _ db.tables = Database.putTable name _ other.tables
      rw [htables]

namespace Transaction

theorem content_commit {db other : Database} (h : db.content = other.content)
    (tx : Transaction) : (tx.commit db).content = (tx.commit other).content := by
  unfold commit
  induction tx.writes generalizing db other with
  | nil => exact h
  | cons write rest ih => exact ih (write.content_apply h)

end Transaction

/-! ## Hooks -/

/-- The hook takes no writes back from the transaction that it is given. -/
def Hook.KeepsWrites (hook : Hook) : Prop :=
  ∀ context tx world, Ends (hook.call context (some tx)) world
    (fun tx? _ => tx.writes <+: (tx?.getD tx).writes) (fun _ _ => True)

/-- The hook leaves tables and log alone, whatever it adds to the transaction that it is given. -/
def Hook.WritesThrough (hook : Hook) : Prop :=
  ∀ context tx world, Ends (hook.call context (some tx)) world
    (fun _ after => after.database.content = world.database.content)
    (fun _ after => after.database.content = world.database.content)

/-- The hooks take no writes back from their transactions. -/
def Hooks.KeepWrites (hooks : Hooks) : Prop :=
  ∀ slot hook, hooks.find? slot = some hook → hook.KeepsWrites

/-- The hooks write through their transactions and in no other way. -/
def Hooks.WriteThrough (hooks : Hooks) : Prop :=
  ∀ slot hook, hooks.find? slot = some hook → hook.WritesThrough

/-- What adds to a transaction with one write more adds to the transaction. -/
theorem Transaction.ends_of_add {attempt : Attempt HookFault Transaction} {tx : Transaction}
    {world : World} {write : Write}
    (h : Ends attempt world
      (fun result after => after = world ∧ (tx.add write).writes <+: result.writes)
      (fun _ after => after = world)) :
    Ends attempt world (fun result after => after = world ∧ tx.writes <+: result.writes)
      (fun _ after => after = world) := by
  refine h.mono (fun result after hend => ?_) fun _ _ hend => hend
  exact ⟨hend.1, (List.prefix_append _ _).trans hend.2⟩

/-- Work through a transaction adds writes to it and leaves the world alone. -/
theorem HookWork.ends_perform_writes (work : HookWork) (tx : Transaction) (world : World) :
    Ends (work.perform tx) world
      (fun result after => after = world ∧ tx.writes <+: result.writes)
      (fun _ after => after = world) := by
  -- a call that fails adds nothing, and one that succeeds adds one write
  induction work generalizing tx with
  | finish result =>
    cases result with
    | ok _ => exact ⟨rfl, List.prefix_rfl⟩
    | error fault => rfl
  | files next ih =>
    rw [perform, ends_bind, Access.ends_files]
    exact ih world.home tx
  | callback next ih =>
    rw [perform, ends_bind, ends_lift]
    exact ih tx
  | execute sql next ih =>
    rw [perform, ends_mk_bind, Access.execute, Access.ends_ask, Transaction.execute]
    cases world.database.failing? sql with
    | some pattern => exact ih _ tx
    | none => exact Transaction.ends_of_add (ih _ _)
  | insert table row next ih =>
    rw [perform, ends_mk_bind, Access.insert, Access.ends_ask]
    cases hinsert : tx.insert world.database table row with
    | error fault => exact ih _ tx
    | ok result =>
      cases Transaction.eq_add_of_insert hinsert
      exact Transaction.ends_of_add (ih _ _)
  | delete table id next ih =>
    rw [perform, ends_mk_bind, Access.delete, Access.ends_ask]
    cases hdelete : tx.delete world.database table id with
    | error fault => exact ih _ tx
    | ok result =>
      obtain ⟨result, existed⟩ := result
      cases Transaction.eq_add_of_delete hdelete
      exact Transaction.ends_of_add (ih _ _)

namespace Hook

theorem Confined.keepsWrites {hook : Hook} (h : hook.Confined) : hook.KeepsWrites := by
  intro context tx world
  obtain ⟨work, hacts⟩ := h
  rw [hacts, ends_map]
  exact (HookWork.ends_perform_writes _ tx world).mono (fun _ _ hend => hend.2)
    fun _ _ _ => trivial

theorem Confined.writesThrough {hook : Hook} (h : hook.Confined) : hook.WritesThrough := by
  intro context tx world
  obtain ⟨work, hacts⟩ := h
  rw [hacts, ends_map]
  refine (HookWork.ends_perform_writes _ tx world).mono (fun _ after hend => ?_)
    fun _ after hend => ?_
  · rw [hend.1]
  · rw [hend]

theorem keepsWrites_program (program : HookProgram) : (Hook.program program).KeepsWrites :=
  fun _ _ _ => ends_program (fun _ _ => List.prefix_rfl) fun _ _ _ => trivial

theorem writesThrough_program (program : HookProgram) : (Hook.program program).WritesThrough :=
  fun _ _ _ => ends_program (fun _ h => congrArg Database.content h)
    fun _ _ h => congrArg Database.content h

/-- A hook of the process has nothing to do with the transaction, so it keeps what is in there. -/
theorem keepsWrites_callback (name : String)
    (f : HookContext → Database → Except HookFault Unit × Database) :
    (Hook.callback name f).KeepsWrites := by
  intro context tx world
  unfold callback Access.database
  rw [ends_bind, ends_act]
  rcases f context world.database with ⟨_ | _, db⟩
  · trivial
  · exact List.prefix_rfl

/-- A hook of the process writes nothing when it leaves tables and log alone. -/
theorem writesThrough_callback {name : String}
    {f : HookContext → Database → Except HookFault Unit × Database}
    (h : ∀ context db, (f context db).2.content = db.content) :
    (Hook.callback name f).WritesThrough := by
  intro context tx world
  have hcontent := h context world.database
  unfold callback Access.database
  rw [ends_bind, ends_act]
  revert hcontent
  rcases f context world.database with ⟨_ | _, db⟩
  · exact fun hcontent => hcontent
  · exact fun hcontent => hcontent

end Hook

namespace Hooks

variable {home : Home} {layout : Layout} {settings : Settings} {hooks : Hooks}

/-- The hooks that settings configure take no writes back. -/
theorem keepWrites_ofSettings (h : Hooks.ofSettings home layout settings = .ok hooks) :
    hooks.KeepWrites := by
  intro slot hook hfind
  cases describable_ofSettings h slot hook hfind with
  | statements path options rules =>
    exact (Hook.onlyExecutes_statements path options rules).confined.keepsWrites
  | program program => exact Hook.keepsWrites_program program

/-- The hooks that settings configure write through their transactions. -/
theorem writeThrough_ofSettings (h : Hooks.ofSettings home layout settings = .ok hooks) :
    hooks.WriteThrough := by
  intro slot hook hfind
  cases describable_ofSettings h slot hook hfind with
  | statements path options rules =>
    exact (Hook.onlyExecutes_statements path options rules).confined.writesThrough
  | program program => exact Hook.writesThrough_program program

end Hooks

end Migrations

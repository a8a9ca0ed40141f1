import Migrations.Hook.Statements
import Migrations.Proofs.Database.Rows
import Migrations.Proofs.Procedure.Steps

/-!
# Hooks that Work through Their Transaction

What a hook does that acts on the database through the transaction that it is given and through
nothing else, as a tree of its calls: it looks at files, it uses the transaction and learns what
came of that, and in the end it agrees or fails.  Which calls it makes depends on its context, on
the files and on the answers that it gets.

## Main statements

- `Hook.onlyExecutes_statements`: the hooks of statement files only execute statements.
- `Hook.OnlyExecutes.exists_outcome`: such a hook adds statements to any transaction, and which ones
  follows from its context, the files and the failing patterns.
-/

namespace Migrations

/-! ## Work -/

/-- What a hook does with the transaction that it is given. -/
inductive HookWork where
  /-- The hook agrees, or fails. -/
  | finish (result : Except HookFault Unit)
  /-- The hook looks at the files. -/
  | files (next : Home → HookWork)
  /-- The process does something that leaves the database and the files alone. -/
  | callback (next : HookWork)
  | execute (sql : String) (next : Except DatabaseFault Unit → HookWork)
  | insert (table : String) (row : Change) (next : Except DatabaseFault Unit → HookWork)
  | delete (table : String) (id : ChangeId) (next : Except DatabaseFault Bool → HookWork)

namespace HookWork

/-- Does the work in a transaction.  A call that fails leaves the transaction as it was. -/
def perform : HookWork → Transaction → Attempt HookFault Transaction
  | finish result, tx => ExceptT.mk (return result.map fun _ => tx)
  | files next, tx => do
    let home ← Access.files .ok
    (next home).perform tx
  | callback next, tx => do
    Procedure.mark .callback
    next.perform tx
  | execute sql next, tx => ExceptT.mk do
    match ← (Access.execute tx sql).run with
    | .ok tx => ((next (.ok ())).perform tx).run
    | .error fault => ((next (.error fault)).perform tx).run
  | insert table row next, tx => ExceptT.mk do
    match ← (Access.insert tx table row).run with
    | .ok tx => ((next (.ok ())).perform tx).run
    | .error fault => ((next (.error fault)).perform tx).run
  | delete table id next, tx => ExceptT.mk do
    match ← (Access.delete tx table id).run with
    | .ok (tx, existed) => ((next (.ok existed)).perform tx).run
    | .error fault => ((next (.error fault)).perform tx).run

/-- The steps of the work only look. -/
theorem takes_perform {P : Event → (World → World) → Prop} (hP : Ordinary P) (work : HookWork)
    (tx : Transaction) : Attempt.Takes P (work.perform tx) := by
  -- a call that fails leaves the transaction, one that succeeds leaves another one
  induction work generalizing tx with
  | finish result => trivial
  | files next ih => exact Attempt.takes_bind (Access.takes_files hP _) fun home => ih home tx
  | callback next ih =>
    exact Attempt.takes_bind (Attempt.takes_lift (Access.takes_mark hP rfl)) fun _ => ih tx
  | execute sql next ih =>
    rw [perform]
    refine Attempt.takes_mk_bind (Access.takes_ask hP _ rfl) fun result => ?_
    cases result with
    | ok tx => exact ih _ tx
    | error fault => exact ih _ tx
  | insert table row next ih =>
    rw [perform]
    refine Attempt.takes_mk_bind (Access.takes_ask hP _ rfl) fun result => ?_
    cases result with
    | ok tx => exact ih _ tx
    | error fault => exact ih _ tx
  | delete table id next ih =>
    rw [perform]
    refine Attempt.takes_mk_bind (Access.takes_ask hP _ rfl) fun result => ?_
    cases result with
    | ok result => exact ih _ result.1
    | error fault => exact ih _ tx

/-- The work leaves ledger rows alone. -/
def Executes : HookWork → Prop
  | finish _ => True
  | files next => ∀ home, (next home).Executes
  | callback next => next.Executes
  | execute _ next => ∀ result, (next result).Executes
  | insert _ _ _ => False
  | delete _ _ _ => False

/-- The statements are executed up to the first that fails. -/
def executing : List String → HookWork
  | [] => finish (.ok ())
  | sql :: rest =>
    execute sql fun
      | .ok () => executing rest
      | .error fault => finish (.error (.refused fault))

theorem executes_executing (statements : List String) : (executing statements).Executes := by
  induction statements with
  | nil => trivial
  | cons sql rest ih =>
    intro result
    cases result with
    | ok _ => exact ih
    | error fault => trivial

theorem perform_executing (statements : List String) (tx : Transaction) :
    (executing statements).perform tx = (Access.executeAll tx statements).adapt .refused := by
  induction statements generalizing tx with
  | nil => rfl
  | cons sql rest ih =>
    rw [executing, perform, Access.executeAll]
    -- both sides begin with the same step, so what follows in each world is compared
    show Procedure.step _ _ _ = Procedure.step _ _ _
    congr 1
    funext world
    show Procedure.andThen (Procedure.done (tx.execute world.database sql)) _ =
      Procedure.andThen (Procedure.andThen (Procedure.done (tx.execute world.database sql)) _) _
    cases tx.execute world.database sql with
    | ok tx => exact ih tx
    | error fault => rfl

/-- Work that only executes statements adds statements to its transaction and leaves the world
alone.  What it adds follows from the files and the failing patterns, whatever the transaction. -/
theorem Executes.exists_outcome {work : HookWork} (hwork : work.Executes) (home : Home)
    (failures : List String) :
    ∃ outcome : Except HookFault (List String), ∀ (tx : Transaction) (world : World),
      world.home = home → world.database.failures = failures →
        (work.perform tx).run.run world = (outcome.map tx.withStatements, world) := by
  induction work with
  | finish result =>
    cases result with
    | ok _ =>
      refine ⟨.ok [], fun tx world _ _ => ?_⟩
      rw [Except.map, Transaction.withStatements_nil]
      rfl
    | error fault => exact ⟨.error fault, fun tx world _ _ => rfl⟩
  | files next ih =>
    obtain ⟨outcome, h⟩ := ih home (hwork home)
    refine ⟨outcome, fun tx world hhome hfailures => ?_⟩
    rw [← h tx world hhome hfailures, ← hhome]
    rfl
  | callback next ih =>
    obtain ⟨outcome, h⟩ := ih hwork
    exact ⟨outcome, fun tx world hhome hfailures => h tx world hhome hfailures⟩
  | execute sql next ih =>
    -- whether the statement fails is the same in every world with these patterns
    cases hfails : failures.find? (Text.contains sql) with
    | some pattern =>
      obtain ⟨outcome, h⟩ := ih (.error (.statement pattern sql)) (hwork _)
      refine ⟨outcome, fun tx world hhome hfailures => ?_⟩
      have hexecute : tx.execute world.database sql = .error (.statement pattern sql) := by
        simp [Transaction.execute, Database.failing?, hfailures, hfails]
      rw [perform]
      show Procedure.run (Procedure.andThen (.done (tx.execute world.database sql)) _) _ = _
      rw [hexecute]
      exact h tx world hhome hfailures
    | none =>
      obtain ⟨outcome, h⟩ := ih (.ok ()) (hwork _)
      refine ⟨outcome.map (sql :: ·), fun tx world hhome hfailures => ?_⟩
      have hexecute : tx.execute world.database sql = .ok (tx.add (.statement sql)) := by
        simp [Transaction.execute, Database.failing?, hfailures, hfails]
      rw [perform]
      show Procedure.run (Procedure.andThen (.done (tx.execute world.database sql)) _) _ = _
      rw [hexecute]
      refine (h (tx.add (.statement sql)) world hhome hfailures).trans ?_
      cases outcome <;> simp [Except.map, Transaction.withStatements_cons]
  -- work that writes rows does not only execute
  | insert table row next ih => exact absurd hwork id
  | delete table id next ih => exact absurd hwork (fun h => h)

end HookWork

/-! ## Hooks -/

namespace Hook

/-- In a transaction the hook does the work that belongs to its context. -/
def ActsBy (hook : Hook) (work : HookContext → HookWork) : Prop :=
  ∀ context tx, hook.call context (some tx) = some <$> (work context).perform tx

/-- The hook acts through the transaction that it is given and through nothing else. -/
def Confined (hook : Hook) : Prop := ∃ work, hook.ActsBy work

/-- All that the hook does is to execute statements through its transaction. -/
def OnlyExecutes (hook : Hook) : Prop :=
  ∃ work, hook.ActsBy work ∧ ∀ context, (work context).Executes

/-- Any property of ordinary steps holds of those of a hook that acts through its transaction. -/
theorem Confined.takes {hook : Hook} (h : hook.Confined) {P : Event → (World → World) → Prop}
    (hP : Ordinary P) (context : HookContext) (tx : Transaction) :
    Attempt.Takes P (hook.call context (some tx)) := by
  obtain ⟨work, hacts⟩ := h
  rw [hacts]
  exact Attempt.takes_map some (HookWork.takes_perform hP _ tx)

theorem OnlyExecutes.confined {hook : Hook} (h : hook.OnlyExecutes) : hook.Confined :=
  let ⟨work, hacts, _⟩ := h
  ⟨work, hacts⟩

/-- The work of a hook with statements, given how it fills the text of its file. -/
def statementWork (path : Path) (fill : String → List String) : HookWork :=
  .files fun home =>
    match readStatements path home with
    | .ok text => .executing (fill text)
    | .error fault => .finish (.error fault)

theorem executes_statementWork (path : Path) (fill : String → List String) :
    (statementWork path fill).Executes := by
  intro home
  dsimp only
  split
  · exact HookWork.executes_executing _
  · trivial

/-- The hook of a file with statements does nothing but execute them. -/
theorem onlyExecutes_statements (path : Path) (options : Variables) (rules : StatementRules) :
    (Hook.statements path options rules).OnlyExecutes := by
  refine ⟨fun context => statementWork path fun text =>
    rules.statements ((scope context options).fill text),
    fun context tx => ?_, fun context => executes_statementWork path _⟩
  show (Access.files (readStatements path) >>= _) =
    some <$> (Access.files .ok >>= fun home => HookWork.perform _ tx)
  -- the hook looks at the files first, whatever it then makes of them
  rw [Access.files_bind, map_bind]
  congr 1
  funext home
  cases readStatements path home with
  | error fault => rfl
  | ok text =>
    rw [HookWork.perform_executing]
    simp only [map_eq_pure_bind]

/-- A hook of the process that only looks at its context is confined. -/
theorem onlyExecutes_callback (name : String) (result : HookContext → Except HookFault Unit) :
    (Hook.callback name fun context db => (result context, db)).OnlyExecutes := by
  refine ⟨fun context => .callback (.finish (result context)), fun context tx => ?_,
    fun context => trivial⟩
  show Procedure.step _ _ _ = Procedure.step _ _ _
  congr 1
  funext world
  dsimp only
  cases result context <;> rfl

/-- The statements that a hook executes when it is called in a world, unless it fails. -/
def outcome (hook : Hook) (context : HookContext) (world : World) :
    Except HookFault (List String) :=
  ((hook.call context (some {})).run.run world).1.map fun tx? =>
    (tx?.getD {}).writes.filterMap Write.statement?

/-- A hook that only executes statements does in every transaction what it does in an empty one, as
long as the files and the failing patterns are the same. -/
theorem OnlyExecutes.run_call {hook : Hook} (h : hook.OnlyExecutes) (context : HookContext)
    (tx : Transaction) {world now : World} (hhome : now.home = world.home)
    (hfailures : now.database.failures = world.database.failures) :
    (hook.call context (some tx)).run.run now =
      ((hook.outcome context world).map fun statements =>
        some (tx.withStatements statements), now) := by
  obtain ⟨work, hacts, hexecutes⟩ := h
  obtain ⟨result, hresult⟩ :=
    (hexecutes context).exists_outcome world.home world.database.failures
  -- what the work adds is found once, for the files and the patterns of the first world
  have hcall : ∀ (tx : Transaction) (now : World), now.home = world.home →
      now.database.failures = world.database.failures →
      (hook.call context (some tx)).run.run now =
        (result.map fun statements => some (tx.withStatements statements), now) := by
    intro tx now hhome hfailures
    rw [hacts, ExceptT.run_map, map_eq_pure_bind, Procedure.run_bind,
      hresult tx now hhome hfailures]
    cases result <;> rfl
  -- an empty transaction has nothing in it afterwards but what the work added
  have houtcome : hook.outcome context world = result := by
    rw [outcome, hcall {} world rfl rfl]
    cases result with
    | error fault => rfl
    | ok statements =>
      simp [Except.map, Transaction.withStatements, Write.statement?, Function.comp_def]
  rw [houtcome]
  exact hcall tx now hhome hfailures

end Hook

/-! ## The hooks of a project -/

namespace Hooks

/-- All hooks act through the transactions that they are given and through nothing else. -/
def Confined (hooks : Hooks) : Prop := ∀ slot hook, hooks.find? slot = some hook → hook.Confined

/-- All that the hooks do is to execute statements through their transactions. -/
def OnlyExecute (hooks : Hooks) : Prop :=
  ∀ slot hook, hooks.find? slot = some hook → hook.OnlyExecutes

/-- The property holds of what calling the hooks takes: the marks of the calls, and the steps of the
hooks. -/
structure Take (hooks : Hooks) (P : Event → (World → World) → Prop) : Prop where
  mark : ∀ slot context, P (.hook slot context) fun world => world
  call : ∀ slot hook, hooks.find? slot = some hook →
    ∀ context tx, Attempt.Takes P (hook.call context (some tx))

/-- Hooks that act through their transactions take the mark of each call and ordinary steps. -/
theorem Confined.take {hooks : Hooks} (h : hooks.Confined) {P : Event → (World → World) → Prop}
    (hP : Ordinary P) (hmark : ∀ slot context, P (.hook slot context) fun world => world) :
    hooks.Take P :=
  ⟨hmark, fun slot hook hfind context tx => (h slot hook hfind).takes hP context tx⟩

end Hooks

end Migrations

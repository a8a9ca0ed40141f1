import Migrations.Proofs.Database.View
import Migrations.Proofs.Hook.Work
import Migrations.Proofs.Procedure.Lockstep
import Migrations.Proofs.Run.Execution

/-!
# Script by Script or All Together

A run in which every script is a transaction of its own and the run of the same plan in one
transaction are in lockstep: they call the same hooks in the same contexts, execute the same
statements, and stop at the same point for the same reason.  The invariant is that the open
transaction of the one run sees the same database as the open transaction of the other, although in
the one the scripts before are committed and in the other they are not.

## Main statements

- `HookWork.lockstep_perform`: what a hook does in the one run it does in the other.
- `Runner.lockstep_apply`: so it is with a script.
- `Runner.execute_modes`: both modes come to the same result, and what differs is what is left of a
  run that fails.
-/

namespace Migrations

open Attempt

/-! ## Two runs -/

/-- The transactions see the same, and nothing was committed in the second world since its database
was the given one. -/
structure Aligned (base : Database) (tx : Transaction) (world : World) (tx' : Transaction)
    (other : World) : Prop where
  alike : tx.Alike world.database tx' other.database
  home : world.home = other.home
  base : other.database = base

/-- How two runs stop: for the same reason, with nothing committed in the second one. -/
structure Stopped {ε : Type} (base : Database) (fault : ε) (world : World) (fault' : ε)
    (other : World) : Prop where
  fault : fault = fault'
  failures : world.database.failures = other.database.failures
  base : other.database = base

/-- The worlds have the same files, and databases that differ in the times of application only. -/
structure World.Alike (world other : World) : Prop where
  database : world.database.timeless = other.database.timeless
  home : world.home = other.home

theorem World.Alike.refl (world : World) : world.Alike world := ⟨rfl, rfl⟩

variable {base : Database} {tx tx' : Transaction} {world other : World}

/-- In worlds that are alike new transactions see the same. -/
theorem World.Alike.aligned (h : world.Alike other) : Aligned other.database {} world {} other :=
  ⟨⟨Transaction.fits_empty _, Transaction.fits_empty _, h.database⟩, h.home, rfl⟩

theorem Aligned.stopped {ε : Type} {fault fault' : ε} (h : Aligned base tx world tx' other)
    (hfault : fault = fault') : Stopped base fault world fault' other :=
  ⟨hfault, h.alike.failures, h.base⟩

theorem Stopped.map {ε δ : Type} {fault fault' : ε} (f : ε → δ)
    (h : Stopped base fault world fault' other) :
    Stopped base (f fault) world (f fault') other :=
  ⟨congrArg f h.fault, h.failures, h.base⟩

/-- Transactions that come to see the same by a step that leaves the worlds alone. -/
theorem Aligned.step {next next' : Transaction} (h : Aligned base tx world tx' other)
    (halike : next.Alike world.database next' other.database) :
    Aligned base next world next' other := ⟨halike, h.home, h.base⟩

/-! ## Steps of transactions -/

namespace Access

theorem lockstep_execute (h : Aligned base tx world tx' other) (sql : String) :
    Lockstep (execute tx sql) world (execute tx' sql) other (Aligned base)
      (fun fault after fault' last => fault = fault' ∧ Aligned base tx after tx' last) := by
  have hstep := h.alike.execute sql
  refine lockstep_ask rfl ?_
  revert hstep
  -- both statements succeed or both fail; the other two cases are ruled out by `hstep`
  rcases tx.execute world.database sql with fault | next <;>
    rcases tx'.execute other.database sql with fault' | next' <;> intro hstep
  · exact ⟨hstep, h⟩
  · exact hstep
  · exact hstep
  · exact h.step hstep

theorem lockstep_insert (h : Aligned base tx world tx' other) (table : String)
    {row row' : Change} (hrow : row.timeless = row'.timeless) :
    Lockstep (insert tx table row) world (insert tx' table row') other (Aligned base)
      (fun fault after fault' last => fault = fault' ∧ Aligned base tx after tx' last) := by
  have hstep := h.alike.insert table hrow
  refine lockstep_ask rfl ?_
  revert hstep
  rcases tx.insert world.database table row with fault | next <;>
    rcases tx'.insert other.database table row' with fault' | next' <;> intro hstep
  · exact ⟨hstep, h⟩
  · exact hstep
  · exact hstep
  · exact h.step hstep

theorem lockstep_delete (h : Aligned base tx world tx' other) (table : String) (id : ChangeId) :
    Lockstep (delete tx table id) world (delete tx' table id) other
      (fun result after result' last =>
        Aligned base result.1 after result'.1 last ∧ result.2 = result'.2)
      (fun fault after fault' last => fault = fault' ∧ Aligned base tx after tx' last) := by
  have hstep := h.alike.delete table id
  refine lockstep_ask rfl ?_
  revert hstep
  rcases tx.delete world.database table id with fault | ⟨next, existed⟩ <;>
    rcases tx'.delete other.database table id with fault' | ⟨next', existed'⟩ <;> intro hstep
  · exact ⟨hstep, h⟩
  · exact hstep
  · exact hstep
  · exact ⟨h.step hstep.1, hstep.2⟩

end Access

/-! ## Hooks -/

/-- A hook that acts through its transaction does the same in transactions that see the same. -/
theorem HookWork.lockstep_perform (work : HookWork) (h : Aligned base tx world tx' other) :
    Lockstep (work.perform tx) world (work.perform tx') other (Aligned base) (Stopped base) := by
  induction work generalizing tx tx' world other with
  | finish result =>
    cases result with
    | ok _ => exact ⟨rfl, h⟩
    | error fault => exact ⟨rfl, h.stopped rfl⟩
  | files next ih =>
    refine lockstep_bind ⟨rfl, ?_⟩
    -- the files are the same, so the hook goes on in the same way
    show Lockstep ((next world.home).perform tx) world ((next other.home).perform tx') other _ _
    rw [h.home]
    exact ih other.home h
  | callback next ih => exact lockstep_bind (lockstep_lift rfl (ih h))
  | execute sql next ih =>
    rw [perform, perform]
    refine lockstep_mk_bind ((Access.lockstep_execute h sql).mono (fun t v t' v' halign => ?_)
      fun fault v fault' v' hstop => ?_)
    · exact ih _ halign
    · obtain ⟨rfl, halign⟩ := hstop
      exact ih _ halign
  | insert table row next ih =>
    rw [perform, perform]
    refine lockstep_mk_bind ((Access.lockstep_insert h table rfl).mono
      (fun t v t' v' halign => ?_) fun fault v fault' v' hstop => ?_)
    · exact ih _ halign
    · obtain ⟨rfl, halign⟩ := hstop
      exact ih _ halign
  | delete table id next ih =>
    rw [perform, perform]
    refine lockstep_mk_bind ((Access.lockstep_delete h table id).mono
      (fun result v result' v' halign => ?_) fun fault v fault' v' hstop => ?_)
    · obtain ⟨t, existed⟩ := result
      obtain ⟨t', existed'⟩ := result'
      obtain ⟨halign, rfl⟩ := halign
      exact ih _ halign
    · obtain ⟨rfl, halign⟩ := hstop
      exact ih _ halign

namespace Runner

variable {runner : Runner}

theorem lockstep_callHook (hhooks : runner.hooks.Confined) (slot : HookSlot)
    (change? : Option (Change × Nat)) (h : Aligned base tx world tx' other) :
    Lockstep (runner.callHook slot change? tx) world (runner.callHook slot change? tx') other
      (Aligned base) (Stopped base) := by
  unfold callHook
  refine lockstep_bind ?_
  rw [Hooks.dispatch, Hooks.dispatch]
  cases hfind : runner.hooks.find? slot with
  | none => exact lockstep_pure (lockstep_pure h)
  | some hook =>
    -- the call is marked first, with the same context on both sides
    obtain ⟨work, hacts⟩ := hhooks slot hook hfind
    refine lockstep_bind (lockstep_lift rfl (lockstep_adapt ?_))
    rw [hacts, hacts]
    exact lockstep_map ((HookWork.lockstep_perform _ h).mono
      (fun _ _ _ _ halign => lockstep_pure halign) fun _ _ _ _ hstop => hstop.map _)

/-! ## One script -/

theorem lockstep_writeLedger (direction : Direction) (change : Change)
    (h : Aligned base tx world tx' other) :
    Lockstep (runner.writeLedger direction change tx) world
      (runner.writeLedger direction change tx') other (Aligned base) (Stopped base) := by
  cases direction with
  | up =>
    -- reading the clock is a step of the world, but not of its database
    have hnow : Aligned base tx (Access.now.run world).2 tx' (Access.now.run other).2 :=
      ⟨h.alike, h.home, h.base⟩
    -- the rows differ in nothing but the readings of the clocks
    have hrow : (change.stamped (Access.now.run world).1).timeless =
        (change.stamped (Access.now.run other).1).timeless := rfl
    refine lockstep_map (lockstep_bind (lockstep_lift rfl (lockstep_bind (lockstep_adapt ?_))))
    refine (Access.lockstep_insert hnow runner.ledger.table hrow).mono
      (fun _ _ _ _ halign => lockstep_pure halign) fun _ _ _ _ hstop => ?_
    exact hstop.2.stopped (by rw [hstop.1])
  | down =>
    refine lockstep_bind (lockstep_adapt ((Access.lockstep_delete h _ _).mono
      (fun _ _ _ _ halign => lockstep_pure halign.1) fun _ _ _ _ hstop => ?_))
    exact hstop.2.stopped (by rw [hstop.1])

/-- A script makes the same calls in transactions that see the same, and then they see the same
again. -/
theorem lockstep_apply (hhooks : runner.hooks.Confined) (direction : Direction) (sequence : Nat)
    (script : Script) (text : String) (h : Aligned base tx world tx' other) :
    Lockstep (runner.apply direction sequence script text tx) world
      (runner.apply direction sequence script text tx') other
      (fun result after result' last =>
        Aligned base result.1 after result'.1 last ∧ result.2 = result'.2) (Stopped base) := by
  unfold apply
  refine lockstep_bind ((lockstep_callHook hhooks _ _ h).mono (fun t v t' v' h => ?_)
    fun _ _ _ _ hstop => hstop)
  refine lockstep_bind (lockstep_adapt ((Access.lockstep_executeAll t t' _
    h.alike.failures).mono (fun u a u' a' hexec => ?_) fun fault a fault' a' hstop => ?_))
  -- the statements are no rows, so the transactions see the same as before them
  · obtain ⟨rfl, rfl, rfl, rfl⟩ := hexec
    refine lockstep_bind ((lockstep_callHook hhooks _ _
      (h.step (h.alike.withStatements _))).mono (fun t v t' v' h => ?_)
      fun _ _ _ _ hstop => hstop)
    exact lockstep_bind ((lockstep_writeLedger direction _ h).mono
      (fun t v t' v' h => lockstep_pure ⟨h, rfl⟩) fun _ _ _ _ hstop => hstop)
  · obtain ⟨rfl, rfl, rfl⟩ := hstop
    exact h.stopped rfl

/-! ## The scripts -/

/-- A hook around the run in a transaction of its own next to the same hook in the transaction of
the run. -/
theorem lockstep_callHookAlone (hhooks : runner.hooks.Confined) (slot : HookSlot)
    (h : Aligned base {} world tx' other) :
    Lockstep (runner.callHookAlone slot) world (runner.callHook slot none tx') other
      (fun _ after t' last => Aligned base {} after t' last) (Stopped base) := by
  unfold callHookAlone
  cases hfind : runner.hooks.find? slot with
  | none =>
    -- without a hook the one run begins no transaction, and the other goes on in its own
    have hpass : runner.callHook slot none tx' = pure tx' := by
      unfold callHook Hooks.dispatch
      rw [hfind]
      rfl
    rw [hpass, if_neg (by simp [Hooks.has, hfind])]
    exact lockstep_pure h
  | some hook =>
    rw [if_pos (by simp [Hooks.has, hfind]), ← bind_pure (runner.callHook slot none tx')]
    refine Access.lockstep_inTransaction_left (lockstep_bind
      ((lockstep_callHook hhooks slot none h).mono (fun t v t' v' halign => ?_)
        fun _ _ _ _ hstop => hstop))
    -- what the one run has committed now the other still has to write
    exact lockstep_pure ⟨halign.alike.commit, halign.home, halign.base⟩

theorem lockstep_applyOneByOne (hhooks : runner.hooks.Confined) (direction : Direction)
    (scripts : List Script) (sequence : Nat) (h : Aligned base {} world tx' other) :
    Lockstep (runner.applyOneByOne direction sequence scripts) world
      (runner.applyTogether direction sequence scripts tx') other
      (fun outcomes after result last =>
        outcomes = Outcome.commitAll result.2 ∧ Aligned base {} after result.1 last)
      (fun failure after failure' last => Stopped base failure.2 after failure'.2 last) := by
  -- the open transaction of the second run grows with every script, the first one starts anew
  induction scripts generalizing sequence tx' world other with
  | nil =>
    rw [applyOneByOne, applyTogether]
    refine lockstep_bind (lockstep_adapt ((lockstep_callHookAlone hhooks _ h).mono
      (fun _ _ _ _ halign => lockstep_pure ⟨rfl, halign⟩) fun _ _ _ _ hstop => hstop))
  | cons script rest ih =>
    rw [applyOneByOne, applyTogether]
    refine lockstep_mk_bind ?_
    -- the part of the second run that belongs to this script
    let together : Attempt Failure (Transaction × Nat) := do
      runner.apply direction sequence script (← script.text direction) tx'
    have hscript : Lockstep (runner.applyAlone direction sequence script) world together other
        (fun n after result last => n = result.2 ∧ Aligned base {} after result.1 last)
        (Stopped base) := by
      unfold applyAlone
      refine lockstep_bind (lockstep_result (fun text _ => ?_) fun _ _ => h.stopped rfl)
      refine Access.lockstep_inTransaction_left ((lockstep_apply hhooks direction sequence script
        text h).mono (fun _ _ _ _ happly => ?_) fun _ _ _ _ hstop => hstop)
      obtain ⟨halign, hcount⟩ := happly
      exact ⟨hcount, halign.alike.commit, halign.home, halign.base⟩
    refine hscript.mono (fun n v result v' hdone => ?_) fun _ _ _ _ hstop => ⟨rfl, hstop⟩
    obtain ⟨next, m⟩ := result
    obtain ⟨rfl, halign⟩ := hdone
    refine lockstep_mk_bind ((ih (sequence + 1) halign).mono (fun outcomes u result u' hrest => ?_)
      fun _ _ _ _ hstop => ⟨rfl, hstop⟩)
    exact ⟨rfl, congrArg (_ :: ·) hrest.1, hrest.2⟩

/-- The scripts of a plan one by one next to the same scripts together. -/
theorem lockstep_runPerScript {plan : Plan} (hhooks : runner.hooks.Confined)
    (h : Aligned base {} world {} other) :
    Lockstep (runner.runPerScript plan) world (runner.runPerPlan plan) other
      (fun outcomes after outcomes' last => outcomes = outcomes' ∧ after.Alike last)
      (fun failure after failure' last => Stopped base failure.2 after failure'.2 last) := by
  unfold runPerScript runPerPlan
  refine lockstep_map_right (lockstep_adapt_right (Access.lockstep_inTransaction_right ?_))
  refine lockstep_bind (lockstep_adapt ((lockstep_callHookAlone hhooks _ h).mono
    (fun _ v t' v' halign => ?_) fun _ _ _ _ hstop => hstop))
  refine (lockstep_applyOneByOne hhooks plan.direction plan.scripts 0 halign).mono
    (fun outcomes u result u' hdone => ?_) fun _ _ _ _ hstop => hstop
  exact ⟨hdone.1, hdone.2.alike.sees, hdone.2.home⟩

/-! ## The run -/

/-- The runner in another mode. -/
def inMode (runner : Runner) (mode : TransactionMode) : Runner := { runner with mode := mode }

/-- How scripts are executed one by one does not depend on the mode. -/
theorem runPerScript_inMode (runner : Runner) (mode : TransactionMode) (plan : Plan) :
    (runner.inMode mode).runPerScript plan = runner.runPerScript plan := by
  have hloop : ∀ (scripts : List Script) (sequence : Nat),
      (runner.inMode mode).applyOneByOne plan.direction sequence scripts =
        runner.applyOneByOne plan.direction sequence scripts := by
    intro scripts
    induction scripts with
    | nil => intro sequence; rfl
    | cons script rest ih => intro sequence; rw [applyOneByOne, applyOneByOne, ih]; rfl
  unfold runPerScript
  rw [hloop]
  rfl

theorem runPerPlan_inMode (runner : Runner) (mode : TransactionMode) (plan : Plan) :
    (runner.inMode mode).runPerPlan plan = runner.runPerPlan plan := by
  have hloop : ∀ (scripts : List Script) (sequence : Nat) (tx : Transaction),
      (runner.inMode mode).applyTogether plan.direction sequence scripts tx =
        runner.applyTogether plan.direction sequence scripts tx := by
    intro scripts
    induction scripts with
    | nil => intro sequence tx; rfl
    | cons script rest ih =>
      intro sequence tx
      rw [applyTogether, applyTogether]
      simp only [ih]
      rfl
  unfold runPerPlan
  simp only [hloop]
  rfl

/-- The database in which the scripts of a run are executed: upwards the ledger's table is there,
unless the database cannot be asked for it. -/
def origin (runner : Runner) (plan : Plan) (db : Database) : Database :=
  if plan.direction.isUp ∧ ¬ db.unreachable then db.createTable runner.ledger.table else db

theorem log_origin (runner : Runner) (plan : Plan) (db : Database) :
    (runner.origin plan db).log = db.log := by
  unfold origin
  split
  · rw [Database.createTable_eq]
  · rfl

theorem failures_origin (runner : Runner) (plan : Plan) (db : Database) :
    (runner.origin plan db).failures = db.failures := by
  unfold origin
  split
  · rw [Database.createTable_eq]
  · rfl

/-- The statements that are left of a run in one transaction that failed. -/
def remains (runner : Runner) (plan : Plan) (db : Database) : List String :=
  if plan.direction.isUp then runner.abortStatements db else []

theorem lockstep_ensure (ledger : Ledger) (hdatabase : world.database = other.database)
    (hhome : world.home = other.home) :
    Lockstep ledger.ensure world ledger.ensure other
      (fun _ after _ last => other.database.unreachable = false ∧
        last.database = other.database.createTable ledger.table ∧
        after.database = last.database ∧ after.home = last.home)
      (fun fault after fault' last => other.database.unreachable = true ∧
        Stopped other.database fault after fault' last) := by
  unfold Ledger.ensure
  refine lockstep_bind (lockstep_adapt (Access.lockstep_ask rfl ?_))
  rw [hdatabase, Database.hasTable]
  cases hreach : other.database.unreachable with
  | true => exact ⟨rfl, rfl, by rw [hdatabase], rfl⟩
  | false =>
    cases htable : other.database.table? ledger.table with
    | some table =>
      refine lockstep_pure ⟨rfl, ?_, hdatabase, hhome⟩
      simp [Database.createTable, htable]
    | none =>
      refine lockstep_lift rfl ⟨rfl, rfl, ?_, hhome⟩
      simp [hdatabase]

theorem lockstep_runScripts (plan : Plan) (hhooks : runner.hooks.Confined)
    (hdatabase : world.database = other.database) (hhome : world.home = other.home) :
    Lockstep ((runner.inMode .perScript).runScripts plan) world
      ((runner.inMode .perPlan).runScripts plan) other
      (fun outcomes after outcomes' last =>
        outcomes = outcomes' ∧ after.database.timeless = last.database.timeless)
      (fun failure after failure' last =>
        Stopped (runner.origin plan other.database) failure.2 after failure'.2 last) := by
  -- from the same database empty transactions see the same, which begins the simulation
  have hruns : ∀ {base : Database} {now now' : World}, now.database = now'.database →
      now.home = now'.home → now'.database = base →
      Lockstep ((runner.inMode .perScript).runPerScript plan) now
        ((runner.inMode .perPlan).runPerPlan plan) now'
        (fun outcomes after outcomes' last =>
          outcomes = outcomes' ∧ after.database.timeless = last.database.timeless)
        (fun failure after failure' last => Stopped base failure.2 after failure'.2 last) := by
    intro base now now' hdatabase hhome hbase
    have halike : now.Alike now' := ⟨by rw [hdatabase], hhome⟩
    rw [runPerScript_inMode, runPerPlan_inMode]
    subst hbase
    exact (lockstep_runPerScript hhooks halike.aligned).mono
      (fun _ _ _ _ h => ⟨h.1, h.2.database⟩) fun _ _ _ _ h => h
  unfold runScripts origin
  by_cases hup : plan.direction.isUp = true
  · rw [if_pos hup, if_pos hup]
    refine lockstep_bind (lockstep_adapt ((lockstep_ensure _ hdatabase hhome).mono
      (fun _ v _ v' hensure => ?_) fun _ _ _ _ hstop => ?_))
    · obtain ⟨hreach, hlast, hdatabase, hhome⟩ := hensure
      rw [if_pos ⟨hup, by simp [hreach]⟩]
      exact hruns hdatabase hhome hlast
    · rw [if_neg (by simp [hstop.1])]
      exact hstop.2
  · rw [if_neg hup, if_neg hup, if_neg fun h => hup h.1]
    exact hruns hdatabase hhome rfl

/-- The abort script makes the same calls where the same statements fail. -/
theorem calls_abort (runner : Runner)
    (hfailures : world.database.failures = other.database.failures) :
    runner.abort.calls world = runner.abort.calls other := by
  unfold abort
  cases runner.onAbort with
  | none => rfl
  | some text =>
    -- what the script comes to is thrown away, so only its statements matter
    let attempt : Attempt DatabaseFault Unit := Access.inTransaction fun tx => do
      return (← Access.executeAll tx (runner.rules.statements text), ())
    have hcalls : attempt.run.calls world = attempt.run.calls other := by
      rw [Access.calls_inTransaction, Access.calls_inTransaction]
      have hlock : Lockstep (do return (← Access.executeAll {} (runner.rules.statements text), ()))
          world (do return (← Access.executeAll {} (runner.rules.statements text), ())) other
          (fun _ _ _ _ => True) fun _ _ _ _ => True :=
        lockstep_bind ((Access.lockstep_executeAll {} {} _ hfailures).mono
          (fun _ _ _ _ _ => lockstep_pure trivial) fun _ _ _ _ _ => trivial)
      exact hlock.1
    show (attempt.run >>= fun _ => pure ()).calls world =
      (attempt.run >>= fun _ => pure ()).calls other
    rw [Procedure.calls_bind, Procedure.calls_bind, hcalls]
    rfl

theorem calls_conclude_error {plan : Plan} (outcomes : List Outcome) (failure : Failure)
    (world : World) :
    (runner.conclude plan (.error (outcomes, failure))).calls world =
      if plan.direction.isUp then runner.abort.calls world else [] := by
  unfold conclude
  dsimp only
  by_cases hup : plan.direction.isUp = true
  · rw [if_pos hup, if_pos hup, Procedure.calls_bind]
    exact List.append_nil _
  · rw [if_neg hup, if_neg hup]
    rfl

/-- From the same database and the same files a plan runs in the same way in both modes: it makes
the same calls and has the same result.  When it succeeds it leaves the same database but for the
times of application, and the same report.  When it fails the run in one transaction leaves nothing
but the ledger's table and the abort script. -/
theorem execute_modes {plan : Plan} (hhooks : runner.hooks.Confined)
    (hdatabase : world.database = other.database) (hhome : world.home = other.home) :
    let one := (runner.inMode .perScript).execute plan
    let all := (runner.inMode .perPlan).execute plan
    one.calls world = all.calls other ∧
      (one.run world).1.2 = (all.run other).1.2 ∧
      match (all.run other).1.2 with
      | .ok () =>
        (one.run world).2.database.timeless = (all.run other).2.database.timeless ∧
          (one.run world).1.1 = (all.run other).1.1
      | .error _ =>
        (all.run other).2.database = { runner.origin plan other.database with
          log := other.database.log ++ runner.remains plan other.database } := by
  intro one all
  by_cases hidle : plan.isEmpty = true
  · have hone : one = .done _ := execute_idle hidle
    have hall : all = .done _ := execute_idle hidle
    rw [hone, hall]
    exact ⟨rfl, rfl, by rw [Procedure.run_done, Procedure.run_done, hdatabase], rfl⟩
  · have hone : one = _ >>= _ := execute_busy (by simpa using hidle)
    have hall : all = _ >>= _ := execute_busy (by simpa using hidle)
    obtain ⟨hcalls, hends⟩ := lockstep_runScripts plan hhooks hdatabase hhome
    rw [hone, hall, Procedure.calls_bind, Procedure.calls_bind, Procedure.run_bind,
      Procedure.run_bind, hcalls]
    -- both runs succeeded, both failed, or one did what the other did not
    split at hends
    · rename_i outcomes after outcomes' last hfirst hsecond
      rw [hfirst, hsecond]
      obtain ⟨rfl, htimeless⟩ := hends
      exact ⟨rfl, rfl, htimeless, rfl⟩
    · rename_i failure after failure' last hfirst hsecond
      obtain ⟨outcomes, fault⟩ := failure
      obtain ⟨outcomes', fault'⟩ := failure'
      obtain ⟨hfault, hfailures, hbase⟩ := hends
      rw [hfirst, hsecond]
      simp only [calls_conclude_error, run_conclude_error]
      refine ⟨?_, congrArg Except.error hfault, ?_⟩
      · rw [calls_abort _ hfailures]
        rfl
      -- the second run committed nothing, so the abort script meets the database of the beginning
      · rw [← runner.log_origin plan other.database, ← hbase]
        unfold remains
        by_cases hup : plan.direction.isUp = true
        · rw [if_pos hup, if_pos hup, run_abort,
            ← abortStatements_congr (runner.failures_origin plan other.database), ← hbase]
          rfl
        · rw [if_neg hup, if_neg hup, List.append_nil]
    · exact hends.elim

/-- A hook that adds the same row to the ledger whenever it is called. -/
private def marker : Hook where
  name := "marker"
  call _ tx? :=
    match tx? with
    | none => return none
    | some tx => some <$> (HookWork.insert "changes" (.pending ⟨9⟩ "marker") fun result =>
        .finish (result.mapError .refused)).perform tx

/-- A runner that calls the hook after each script. -/
private def marking : Runner where
  ledger := ⟨"changes"⟩
  hooks := {
    layout := default
    find? := fun slot => if slot = .afterEach .up then some marker else none }

/-- A plan whose second script meets the row that the hook added after the first one. -/
private def markedScripts : Plan where
  direction := .up
  scripts := [.ofUp ⟨1⟩ "first" "create a;", .ofUp ⟨2⟩ "second" "create b;"]

/-- The second row is refused in both modes, and one transaction leaves nothing. -/
theorem execute_modes_marker :
    let one := (marking.inMode .perScript).execute markedScripts
    let all := (marking.inMode .perPlan).execute markedScripts
    let later : World := { clock := fun n => ⟨n, 0⟩ }
    (one.run {}).1.2 = (all.run later).1.2 ∧ (one.run {}).2.database.log = ["create a"] ∧
      (all.run later).2.database.log = [] := by
  have hhooks : marking.hooks.Confined := by
    intro slot hook hfind
    simp only [marking] at hfind
    split at hfind
    · cases hfind
      exact ⟨_, fun context tx => rfl⟩
    · cases hfind
  have hmodes := @execute_modes {} { clock := fun n => ⟨n, 0⟩ } marking markedScripts hhooks rfl rfl
  exact ⟨hmodes.2.1, by decide +kernel, by decide +kernel⟩

end Runner

end Migrations

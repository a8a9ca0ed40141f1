import Migrations.Proofs.Ledger
import Migrations.Run.Runner

/-!
# Executions of Plans

Which scripts a list of outcomes calls committed, and how the execution of a plan is put together
from its ledger table, its hooks, its scripts, the abort script and the report.
-/

namespace Migrations

open Attempt

/-! ## Committed scripts -/

/-- Which script an outcome is about, and whether that script is committed. -/
def Outcome.mark (outcome : Outcome) : ChangeId × Bool := (outcome.id, outcome.state = .committed)

/-- The marks of scripts that are all committed, or all not. -/
def Script.marks (committed : Bool) (scripts : List Script) : List (ChangeId × Bool) :=
  scripts.map fun script => (script.id, committed)

/-- The committed scripts of a report follow from its marks. -/
theorem Report.committed_eq (report : Report) :
    report.committed = ((report.outcomes.map Outcome.mark).filter Prod.snd).map Prod.fst := by
  rw [committed, idsOf, List.filter_map, List.map_map]
  rfl

theorem Report.committed_of_marks {report : Report} {done rest : List Script}
    (h : report.outcomes.map Outcome.mark = Script.marks true done ++ Script.marks false rest) :
    report.committed = done.map Script.id := by
  rw [committed_eq, h, List.filter_append]
  -- the filter keeps all marks of the first part and none of the second
  have hdone : (Script.marks true done).filter Prod.snd = Script.marks true done :=
    List.filter_eq_self.mpr (by simp [Script.marks])
  have hrest : (Script.marks false rest).filter Prod.snd = [] :=
    List.filter_eq_nil_iff.mpr (by simp [Script.marks])
  rw [hdone, hrest, List.append_nil, Script.marks, List.map_map]
  rfl

theorem Outcome.marks_pending (scripts : List Script) :
    (scripts.map Outcome.pending).map Outcome.mark = Script.marks false scripts := by
  rw [List.map_map]
  rfl

/-- When all scripts were running, all of them are committed. -/
theorem Outcome.marks_commitAll {outcomes : List Outcome} {scripts : List Script}
    (h : outcomes.map (fun outcome => (outcome.id, outcome.state)) =
      scripts.map fun script => (script.id, .running)) :
    (commitAll outcomes).map mark = Script.marks true scripts := by
  induction outcomes generalizing scripts with
  | nil =>
    cases scripts with
    | nil => rfl
    | cons script rest => cases h
  | cons outcome others ih =>
    cases scripts with
    | nil => cases h
    | cons script rest =>
      obtain ⟨hfirst, hrest⟩ := List.cons.inj h
      obtain ⟨hid, hstate⟩ := Prod.mk.inj hfirst
      have hothers := ih hrest
      simp only [commitAll, List.map_map] at hothers ⊢
      rw [List.map_cons, hothers]
      simp [mark, hid, hstate, Script.marks]

/-- Scripts that were not committed are not committed when they are given up. -/
theorem Outcome.marks_abandonAll {outcomes : List Outcome} {scripts : List Script}
    (h : outcomes.map mark = Script.marks false scripts) :
    (abandonAll outcomes).map mark = Script.marks false scripts := by
  induction outcomes generalizing scripts with
  | nil => exact h
  | cons outcome others ih =>
    cases scripts with
    | nil => cases h
    | cons script rest =>
      obtain ⟨hfirst, hrest⟩ := List.cons.inj h
      obtain ⟨hid, hstate⟩ := Prod.mk.inj hfirst
      rw [abandonAll, List.map_cons, ih hrest]
      refine congrArg (· :: _) ?_
      split
      · exact hfirst
      · split
        · exact Prod.ext hid rfl
        · exact Prod.ext hid rfl

namespace Runner

variable {runner : Runner} {plan : Plan}

/-! ## The abort script -/

/-- The statements that the abort script leaves, none when one of them fails. -/
def abortStatements (runner : Runner) (db : Database) : List String :=
  match runner.onAbort with
  | none => []
  | some text =>
    let statements := runner.rules.statements text
    if (Access.firstFault? db statements).isSome then [] else statements

theorem abortStatements_congr {db other : Database} (h : db.failures = other.failures) :
    runner.abortStatements db = runner.abortStatements other := by
  simp only [abortStatements, Access.firstFault?_congr h]

/-- The abort script adds its statements to the log and does nothing else. -/
theorem run_abort (world : World) :
    (runner.abort.run world).2 = { world with database := { world.database with
      log := world.database.log ++ runner.abortStatements world.database } } := by
  unfold abort abortStatements
  cases runner.onAbort with
  | none => simp
  | some text =>
    dsimp only
    -- how the text comes apart plays no part from here on
    generalize runner.rules.statements text = statements
    rw [Procedure.run_bind]
    -- the abort script has no result, so only the world in the end matters
    refine Ends.always (P := (· = { world with database := { world.database with
      log := world.database.log ++
        if (Access.firstFault? world.database statements).isSome then [] else statements } })) ?_
    rw [Access.ends_inTransaction]
    simp only [ends_bind, ends_pure, Access.ends_executeAll]
    cases Access.firstFault? world.database statements <;> simp

/-! ## Hooks -/

/-- The context that a hook is called with. -/
def hookContext (runner : Runner) (slot : HookSlot) : Option (Change × Nat) → HookContext
  | some (change, sequence) => (runner.hooks.context slot).forChange change sequence
  | none => runner.hooks.context slot

/-- The change of a context is the one that the hook is called for. -/
theorem change_hookContext (slot : HookSlot) (change? : Option (Change × Nat)) :
    (runner.hookContext slot change?).change = change?.map Prod.fst := by
  rcases change? with _ | ⟨change, sequence⟩
  · rfl
  · rfl

/-- To call a hook is to dispatch its context. -/
theorem callHook_eq (slot : HookSlot) (change? : Option (Change × Nat)) (tx : Transaction) :
    runner.callHook slot change? tx =
      (do return (← runner.hooks.dispatch slot (runner.hookContext slot change?) (some tx)).getD tx)
      := by
  rcases change? with _ | ⟨change, sequence⟩ <;> rfl

section Loops

variable {direction : Direction} {world : World}

/-- To call a hook is to call the one at the slot, if there is one.  When it fails, its failure has
its name and the id of the change that it was called for. -/
theorem ends_callHook_eq {slot : HookSlot} {change? : Option (Change × Nat)} {tx : Transaction}
    {ok : Transaction → World → Prop} {error : Failure → World → Prop} :
    Ends (runner.callHook slot change? tx) world ok error ↔
      match runner.hooks.find? slot with
      | none => ok tx world
      | some hook => Ends (hook.call (runner.hookContext slot change?) (some tx)) world
          (fun tx? after => ok (tx?.getD tx) after)
          (fun fault after => error (.hook hook.name slot.phase
            (change?.map fun change => change.1.id) fault) after) := by
  rw [callHook_eq, ends_bind, Hooks.dispatch]
  cases runner.hooks.find? slot with
  | none => rfl
  | some hook =>
    -- the mark of the call does not change the world
    rw [ends_bind, ends_lift, ends_adapt, change_hookContext, Option.map_map]
    rfl

/-! ## The ledger -/

/-- The write that records a script, or takes its record back. -/
inductive RowWrite (runner : Runner) (script : Script) : Direction → Write → Prop where
  | up (time : Instant) :
    RowWrite runner script .up (.insert runner.ledger.table (script.change.stamped time))
  | down : RowWrite runner script .down (.delete runner.ledger.table script.id)

/-- The ledger adds the row of a script to the transaction or refuses it, and the database stays as
it is. -/
theorem ends_writeLedger_row (script : Script) (tx : Transaction) :
    Ends (runner.writeLedger direction script.change tx) world
      (fun result after => after.database = world.database ∧
        ∃ row, runner.RowWrite script direction row ∧ result = tx.add row)
      (fun failure after => after.database = world.database ∧
        ∃ fault, failure = .persistence (.refused .write runner.ledger.table fault)) := by
  cases direction with
  | up =>
    rw [writeLedger, ends_map, Ledger.ends_record]
    dsimp only
    split
    · rename_i hinsert
      exact ⟨rfl, _, .up _, Transaction.eq_add_of_insert hinsert⟩
    · exact ⟨rfl, _, rfl⟩
  | down =>
    rw [writeLedger, Ledger.ends_remove]
    split
    · rename_i hdelete
      exact ⟨rfl, _, .down, Transaction.eq_add_of_delete hdelete⟩
    · exact ⟨rfl, _, rfl⟩

/-! ## One script -/

/-- A script is the hook before it, its statements, the hook after it and its row. -/
theorem ends_apply_eq {sequence : Nat} {script : Script} {text : String} {tx : Transaction}
    {ok : Transaction × Nat → World → Prop} {error : Failure → World → Prop} :
    Ends (runner.apply direction sequence script text tx) world ok error ↔
      Ends (runner.callHook (.beforeEach direction) (some (script.change, sequence)) tx) world
        (fun t now =>
          match Access.firstFault? now.database (runner.rules.statements text) with
          | none =>
            Ends (runner.callHook (.afterEach direction) (some (script.change, sequence))
                (t.withStatements (runner.rules.statements text))) now
              (fun u later => Ends (runner.writeLedger direction script.change u) later
                (fun v after => ok (v, (runner.rules.statements text).length) after) error) error
          | some fault => error (.executing script.id (.database fault)) now) error := by
  rw [apply, ends_bind]
  refine iff_of_eq (congrArg (Ends _ world · error) (funext fun t => funext fun now => propext ?_))
  rw [ends_bind, ends_adapt, Access.ends_executeAll]
  cases Access.firstFault? now.database (runner.rules.statements text) with
  | none => simp only [ends_bind, ends_pure]
  | some fault => rfl

/-! ## Scripts from one to the next -/

/-- A hook around the run has a transaction of its own, and without a hook there is none. -/
theorem ends_callHookAlone_eq {slot : HookSlot} {ok : Unit → World → Prop}
    {error : Failure → World → Prop} :
    Ends (runner.callHookAlone slot) world ok error ↔
      if runner.hooks.has slot then
        Ends (runner.callHook slot none {}) world
          (fun tx after => ok () { after with database := tx.commit after.database }) error
      else ok () world := by
  unfold callHookAlone
  split
  · rw [Access.ends_inTransaction]
    simp only [ends_bind, ends_pure]
  · rfl

/-- A script without the section that it needs fails; with it the script is executed in a
transaction of its own. -/
theorem ends_applyAlone_eq {sequence : Nat} {script : Script} {ok : Nat → World → Prop}
    {error : Failure → World → Prop} :
    Ends (runner.applyAlone direction sequence script) world ok error ↔
      match script.text direction with
      | .error failure => error failure world
      | .ok text => Ends (runner.apply direction sequence script text {}) world
          (fun result after =>
            ok result.2 { after with database := result.1.commit after.database }) error := by
  rw [applyAlone, ends_bind, ends_result]
  cases script.text direction with
  | error failure => rfl
  | ok text => exact Access.ends_inTransaction

variable {ok : List Outcome → World → Prop} {error : List Outcome × Failure → World → Prop}

theorem ends_applyOneByOne_nil {sequence : Nat} :
    Ends (runner.applyOneByOne direction sequence []) world ok error ↔
      Ends (runner.callHookAlone (.after direction)) world (fun _ after => ok [] after)
        (fun failure after => error ([], failure) after) := by
  rw [applyOneByOne]
  simp only [ends_bind, ends_adapt, ends_pure]

/-- The others come after the first script, and are not begun when it fails. -/
theorem ends_applyOneByOne_cons {sequence : Nat} {script : Script} {rest : List Script} :
    Ends (runner.applyOneByOne direction sequence (script :: rest)) world ok error ↔
      Ends (runner.applyAlone direction sequence script) world
        (fun n now => Ends (runner.applyOneByOne direction (sequence + 1) rest) now
          (fun outcomes after => ok (.reached script .committed n :: outcomes) after)
          (fun failure after =>
            error (.reached script .committed n :: failure.1, failure.2) after))
        (fun failure after =>
          error (.reached script .failed :: rest.map .pending, failure) after) := by
  rw [applyOneByOne, ends_mk_bind]
  simp only [ends_mk_bind]
  rfl

theorem ends_runPerScript_eq :
    Ends (runner.runPerScript plan) world ok error ↔
      Ends (runner.callHookAlone (.before plan.direction)) world
        (fun _ now => Ends (runner.applyOneByOne plan.direction 0 plan.scripts) now ok error)
        (fun failure after => error (plan.scripts.map .pending, failure) after) := by
  rw [runPerScript, ends_bind, ends_adapt]

theorem ends_applyTogether_nil {sequence : Nat} {tx : Transaction}
    {ok : Transaction × List Outcome → World → Prop} :
    Ends (runner.applyTogether direction sequence [] tx) world ok error ↔
      Ends (runner.callHook (.after direction) none tx) world (fun tx after => ok (tx, []) after)
        (fun failure after => error ([], failure) after) := by
  rw [applyTogether]
  simp only [ends_bind, ends_adapt, ends_pure]

/-- In one transaction, too, the others come after the first script. -/
theorem ends_applyTogether_cons {sequence : Nat} {script : Script} {rest : List Script}
    {tx : Transaction} {ok : Transaction × List Outcome → World → Prop} :
    Ends (runner.applyTogether direction sequence (script :: rest) tx) world ok error ↔
      match script.text direction with
      | .error failure => error (.reached script .running :: rest.map .pending, failure) world
      | .ok text => Ends (runner.apply direction sequence script text tx) world
          (fun result now => Ends (runner.applyTogether direction (sequence + 1) rest result.1) now
            (fun last after => ok (last.1, .reached script .running result.2 :: last.2) after)
            (fun failure after =>
              error (.reached script .running result.2 :: failure.1, failure.2) after))
          (fun failure after =>
            error (.reached script .running :: rest.map .pending, failure) after) := by
  rw [applyTogether]
  dsimp only
  rw [ends_mk_bind, ends_bind, ends_result]
  cases script.text direction with
  | error failure => rfl
  | ok text =>
    simp only [ends_mk_bind]
    rfl

/-- What the scripts and the hooks around them collect is committed as a whole. -/
theorem ends_runPerPlan_eq :
    Ends (runner.runPerPlan plan) world ok error ↔
      Ends (runner.callHook (.before plan.direction) none {}) world
        (fun tx now => Ends (runner.applyTogether plan.direction 0 plan.scripts tx) now
          (fun result after => ok (Outcome.commitAll result.2)
            { after with database := result.1.commit after.database })
          (fun failure after => error (Outcome.abandonAll failure.1, failure.2) after))
        (fun failure after =>
          error (Outcome.abandonAll (plan.scripts.map .pending), failure) after) := by
  rw [runPerPlan, ends_map, ends_adapt, Access.ends_inTransaction]
  simp only [ends_bind, ends_adapt]

end Loops

/-! ## Execution -/

/-- The world in which the scripts of a run are executed: upwards the ledger's table is there. -/
def start (runner : Runner) (plan : Plan) (world : World) : World :=
  if plan.direction.isUp then
    { world with database := world.database.createTable runner.ledger.table }
  else world

/-- The scripts of a plan, after the ledger's table is there. -/
def runMode (runner : Runner) (plan : Plan) : Attempt (List Outcome × Failure) (List Outcome) :=
  match runner.mode with
  | .perScript => runner.runPerScript plan
  | .perPlan => runner.runPerPlan plan

/-- The scripts run once the ledger's table is there; upwards that needs a database that can be
asked for it. -/
theorem ends_runScripts {world : World} {ok : List Outcome → World → Prop}
    {error : List Outcome × Failure → World → Prop} :
    Ends (runner.runScripts plan) world ok error ↔
      if plan.direction.isUp ∧ world.database.unreachable then
        error (plan.scripts.map .pending, runner.ledger.refusal) world
      else Ends (runner.runMode plan) (runner.start plan world) ok error := by
  unfold runScripts start
  by_cases hup : plan.direction.isUp = true
  · rw [if_pos hup, if_pos hup, ends_bind, ends_adapt, Ledger.ends_ensure]
    simp only [hup, true_and]
    rfl
  · rw [if_neg hup, if_neg hup, if_neg fun h => hup h.1]
    rfl

/-- The end of an execution: the abort script when a run upwards failed, and the report. -/
def conclude (runner : Runner) (plan : Plan) :
    Except (List Outcome × Failure) (List Outcome) → Procedure (Report × Except Failure Unit)
  | .ok outcomes => return (⟨plan.direction, outcomes, plan.warnings⟩, .ok ())
  | .error (outcomes, failure) => do
    if plan.direction.isUp then runner.abort
    return (⟨plan.direction, outcomes, plan.warnings⟩, .error failure)

theorem execute_idle (hidle : plan.isEmpty = true) :
    runner.execute plan = .done (⟨plan.direction, [], plan.warnings⟩, .ok ()) := by
  unfold execute
  rw [if_pos hidle]
  rfl

theorem execute_busy (hbusy : plan.isEmpty = false) :
    runner.execute plan = (runner.runScripts plan).run >>= runner.conclude plan := by
  unfold execute
  rw [if_neg (by simp [hbusy])]
  congr 1

/-- A run is an execution whose report is left out when it fails. -/
theorem run_eq (runner : Runner) (plan : Plan) :
    runner.run plan = (liftM (runner.execute plan) : Attempt Failure _) >>= fun executed =>
      liftM (executed.2.map fun _ => executed.1) := by
  apply ExceptT.ext
  rw [ExceptT.run_bind, run_lift, bind_assoc]
  show (runner.execute plan >>= _) = _
  refine congrArg (_ >>= ·) (funext fun executed => ?_)
  rcases executed with ⟨report, failure | _⟩ <;> rfl

@[simp] theorem run_conclude_ok (outcomes : List Outcome) (world : World) :
    (runner.conclude plan (.ok outcomes)).run world =
      ((⟨plan.direction, outcomes, plan.warnings⟩, .ok ()), world) := rfl

/-- After a failed run upwards only the abort script changes the world. -/
theorem run_conclude_error (outcomes : List Outcome) (failure : Failure) (world : World) :
    (runner.conclude plan (.error (outcomes, failure))).run world =
      ((⟨plan.direction, outcomes, plan.warnings⟩, .error failure),
        if plan.direction.isUp then (runner.abort.run world).2 else world) := by
  unfold conclude
  dsimp only
  by_cases hup : plan.direction.isUp = true
  · rw [if_pos hup, if_pos hup, Procedure.run_bind]
    rfl
  · rw [if_neg hup, if_neg hup]
    rfl

/-- How a run ends: a plan without scripts needs nothing, and after a failed run upwards comes the
abort script. -/
theorem ends_run {world : World} {ok : Report → World → Prop} {error : Failure → World → Prop} :
    Ends (runner.run plan) world ok error ↔
      if plan.isEmpty then ok ⟨plan.direction, [], plan.warnings⟩ world
      else Ends (runner.runScripts plan) world
        (fun outcomes after => ok ⟨plan.direction, outcomes, plan.warnings⟩ after)
        (fun failure after => error failure.2
          (if plan.direction.isUp then (runner.abort.run after).2 else after)) := by
  rw [run_eq, ends_bind, ends_lift, ends_result]
  by_cases hidle : plan.isEmpty = true
  · rw [execute_idle hidle, if_pos hidle]
    rfl
  · rw [execute_busy (by simpa using hidle), if_neg hidle, Procedure.run_bind]
    unfold Ends
    rcases (runner.runScripts plan).run.run world with ⟨⟨outcomes, failure⟩ | outcomes, now⟩
    · dsimp only
      rw [run_conclude_error]
      rfl
    · rfl

end Runner

end Migrations

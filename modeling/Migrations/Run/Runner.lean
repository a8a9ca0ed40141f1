import Migrations.Hook.Basic
import Migrations.Ledger
import Migrations.Run.Report
import Migrations.Settings.Basic

/-!
# Runs

How a plan is executed.  Every script goes through the same steps: the hook before it, its
statements, the hook after it, and its row in the ledger.  Either each script is a transaction of
its own, and then a failure leaves the scripts before it committed, or the whole plan is one
transaction, hooks around it included.  The first failure stops the run.  After a failed run upwards
the statements of the abort script are executed, and it does not matter whether they fail.

A run could also stop at a transaction that the database does not begin or commit.  These exits
are left out, because `Access.begin` and `Access.commit` do not fail.  With a transaction for each
script they would fail the script, and a commit would be blamed on it; with one transaction for the
plan its scripts would stay pending when it does not begin, and be abandoned when it does not commit;
a hook around the run would stop the run, and for the abort script it would not matter.
-/

namespace Migrations

structure Runner where
  ledger : Ledger
  hooks : Hooks
  rules : StatementRules := {}
  mode : TransactionMode := .perScript
  onAbort : Option String := none

namespace Runner

/-! ## Hooks -/

/-- Calls the hook at a slot inside a transaction, if there is one. -/
def callHook (runner : Runner) (slot : HookSlot) (change? : Option (Change × Nat))
    (tx : Transaction) : Attempt Failure Transaction := do
  let context := runner.hooks.context slot
  let context := match change? with
    | some (change, sequence) => context.forChange change sequence
    | none => context
  let tx? ← runner.hooks.dispatch slot context (some tx)
  return tx?.getD tx

/-- Calls the hook at a slot in a transaction of its own; there is none without a hook. -/
def callHookAlone (runner : Runner) (slot : HookSlot) : Attempt Failure Unit :=
  if runner.hooks.has slot then
    Access.inTransaction fun tx => do
      return (← runner.callHook slot none tx, ())
  else return ()

/-! ## One script -/

/-- Writes the row of a change into the ledger, or removes it. -/
def writeLedger (runner : Runner) (direction : Direction) (change : Change) (tx : Transaction) :
    Attempt Failure Transaction :=
  match direction with
  | .up => Prod.fst <$> runner.ledger.record tx change
  | .down => runner.ledger.remove tx change.id

/-- Executes the text of a script in a transaction, and says how many statements it had. -/
def apply (runner : Runner) (direction : Direction) (sequence : Nat) (script : Script)
    (text : String) (tx : Transaction) : Attempt Failure (Transaction × Nat) := do
  let change := script.change
  let tx ← runner.callHook (.beforeEach direction) (some (change, sequence)) tx
  let statements := runner.rules.statements text
  let tx ← (Access.executeAll tx statements).adapt fun fault =>
    .executing script.id (.database fault)
  let tx ← runner.callHook (.afterEach direction) (some (change, sequence)) tx
  let tx ← runner.writeLedger direction change tx
  return (tx, statements.length)

/-! ## Scripts one by one -/

def applyAlone (runner : Runner) (direction : Direction) (sequence : Nat) (script : Script) :
    Attempt Failure Nat := do
  let text ← script.text direction
  Access.inTransaction (runner.apply direction sequence script text)

/-- Executes scripts from a position of the run on, each in a transaction of its own, and then
calls the hook after the run.  A failure comes with the outcomes up to then. -/
def applyOneByOne (runner : Runner) (direction : Direction) :
    Nat → List Script → Attempt (List Outcome × Failure) (List Outcome)
  | _, [] => do
    (runner.callHookAlone (.after direction)).adapt fun failure => ([], failure)
    return []
  | sequence, script :: rest => ExceptT.mk do
    match ← (runner.applyAlone direction sequence script).run with
    | .error failure =>
      return .error (.reached script .failed :: rest.map .pending, failure)
    | .ok n =>
      let outcome := Outcome.reached script .committed n
      match ← (runner.applyOneByOne direction (sequence + 1) rest).run with
      | .error (outcomes, failure) => return .error (outcome :: outcomes, failure)
      | .ok outcomes => return .ok (outcome :: outcomes)

def runPerScript (runner : Runner) (plan : Plan) :
    Attempt (List Outcome × Failure) (List Outcome) := do
  (runner.callHookAlone (.before plan.direction)).adapt fun failure =>
    (plan.scripts.map .pending, failure)
  runner.applyOneByOne plan.direction 0 plan.scripts

/-! ## Scripts together -/

/-- Executes scripts from a position of the run on in one transaction, and then calls the hook after
the run.  A failure comes with the outcomes up to then. -/
def applyTogether (runner : Runner) (direction : Direction) :
    Nat → List Script → Transaction →
    Attempt (List Outcome × Failure) (Transaction × List Outcome)
  | _, [], tx => do
    let tx ← (runner.callHook (.after direction) none tx).adapt fun failure => ([], failure)
    return (tx, [])
  | sequence, script :: rest, tx => ExceptT.mk do
    let attempt : Attempt Failure (Transaction × Nat) := do
      runner.apply direction sequence script (← script.text direction) tx
    match ← attempt.run with
    | .error failure =>
      return .error (.reached script .running :: rest.map .pending, failure)
    | .ok (tx, n) =>
      let outcome := Outcome.reached script .running n
      match ← (runner.applyTogether direction (sequence + 1) rest tx).run with
      | .error (outcomes, failure) => return .error (outcome :: outcomes, failure)
      | .ok (tx, outcomes) => return .ok (tx, outcome :: outcomes)

def runPerPlan (runner : Runner) (plan : Plan) :
    Attempt (List Outcome × Failure) (List Outcome) :=
  let attempt := Access.inTransaction fun tx => do
    let tx ← (runner.callHook (.before plan.direction) none tx).adapt fun failure =>
      (plan.scripts.map .pending, failure)
    runner.applyTogether plan.direction 0 plan.scripts tx
  Outcome.commitAll <$> attempt.adapt fun (outcomes, failure) =>
    (Outcome.abandonAll outcomes, failure)

/-! ## Runs -/

/-- Executes the scripts of a plan that has some. -/
def runScripts (runner : Runner) (plan : Plan) :
    Attempt (List Outcome × Failure) (List Outcome) := do
  if plan.direction.isUp then
    runner.ledger.ensure.adapt fun failure => (plan.scripts.map .pending, failure)
  match runner.mode with
  | .perScript => runner.runPerScript plan
  | .perPlan => runner.runPerPlan plan

def abort (runner : Runner) : Procedure Unit :=
  match runner.onAbort with
  | none => return
  | some text => do
    let attempt : Attempt DatabaseFault Unit := Access.inTransaction fun tx => do
      return (← Access.executeAll tx (runner.rules.statements text), ())
    let _ ← attempt.run

/-- Executes a plan, and reports on every script even when the run fails. -/
def execute (runner : Runner) (plan : Plan) : Procedure (Report × Except Failure Unit) := do
  let report (outcomes : List Outcome) : Report := ⟨plan.direction, outcomes, plan.warnings⟩
  if plan.isEmpty then return (report [], .ok ())
  match ← (runner.runScripts plan).run with
  | .ok outcomes => return (report outcomes, .ok ())
  | .error (outcomes, failure) =>
    if plan.direction.isUp then runner.abort
    return (report outcomes, .error failure)

/-- Executes a plan, and reports on every script when the run succeeds. -/
def run (runner : Runner) (plan : Plan) : Attempt Failure Report := ExceptT.mk do
  let (report, result) ← runner.execute plan
  return result.map fun _ => report

end Runner

end Migrations

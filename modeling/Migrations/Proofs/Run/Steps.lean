import Migrations.Proofs.Hook.Work
import Migrations.Proofs.Run.Execution

/-!
# Steps of Runs

The steps of a run are those of its hooks, the marks of their calls, and ordinary steps on the
database.  So a property of all of these holds of every step of the run.

## Main statements

- `Runner.takes_apply`: the steps of one script.
- `Runner.takes_runScripts`, `Runner.everyStep_abort`, `Runner.takes_run`: the steps of a run.
-/

namespace Migrations

open Attempt Procedure

variable {P : Event → (World → World) → Prop}

/-! ## The ledger -/

namespace Ledger

variable {ledger : Ledger} (hP : Ordinary P)

include hP

theorem takes_isThere : Takes P ledger.isThere := takes_adapt _ (Access.takes_ask hP _ rfl)

theorem takes_ensure : Takes P ledger.ensure := by
  unfold ensure
  refine takes_bind (takes_isThere hP) fun there => ?_
  split
  · trivial
  · exact takes_lift (Access.takes_createTable hP _)

theorem takes_changes : Takes P ledger.changes := by
  unfold changes
  refine takes_bind (takes_isThere hP) fun there => ?_
  split
  · exact takes_adapt _ (Access.takes_ask hP _ rfl)
  · trivial

end Ledger

/-! ## One script -/

namespace Runner

section Hooks

variable {runner : Runner} (hP : Ordinary P)

include hP

theorem takes_writeLedger (direction : Direction) (change : Change) (tx : Transaction) :
    Takes P (runner.writeLedger direction change tx) := by
  cases direction with
  | up =>
    refine takes_map _ (takes_bind (takes_lift (Access.takes_now hP)) fun now => ?_)
    exact takes_bind (takes_adapt _ (Access.takes_ask hP _ rfl)) fun _ => trivial
  | down =>
    exact takes_bind (takes_adapt _ (Access.takes_ask hP _ rfl)) fun _ => trivial

theorem everyStep_abort : runner.abort.EveryStep P := by
  unfold abort
  split
  · trivial
  · refine everyStep_bind (Access.takes_inTransaction hP fun tx => ?_) fun _ => trivial
    exact takes_bind (Access.takes_executeAll hP tx _) fun _ => trivial

/-- Only a run that failed takes more steps after its scripts, those of the abort script. -/
theorem everyStep_conclude {plan : Plan}
    (result : Except (List Outcome × Failure) (List Outcome)) :
    (runner.conclude plan result).EveryStep P := by
  match result with
  | .ok outcomes => trivial
  | .error (outcomes, failure) =>
    unfold conclude
    dsimp only
    by_cases hup : plan.direction.isUp = true
    · rw [if_pos hup]
      exact everyStep_bind (everyStep_abort hP) fun _ => trivial
    · rw [if_neg hup]
      trivial

variable (hhooks : runner.hooks.Take P)

include hhooks

omit hP in
theorem takes_callHook (slot : HookSlot) (change? : Option (Change × Nat)) (tx : Transaction) :
    Takes P (runner.callHook slot change? tx) := by
  unfold callHook
  refine takes_bind ?_ fun _ => trivial
  rw [Hooks.dispatch]
  cases hfind : runner.hooks.find? slot with
  | none => trivial
  | some hook =>
    -- the mark of the call comes first, and then the hook
    refine takes_bind (takes_lift (everyStep_act (hhooks.mark _ _))) fun _ => ?_
    exact takes_adapt _ (hhooks.call slot hook hfind _ tx)

theorem takes_callHookAlone (slot : HookSlot) : Takes P (runner.callHookAlone slot) := by
  unfold callHookAlone
  split
  · exact Access.takes_inTransaction hP fun tx =>
      takes_bind (takes_callHook hhooks slot none tx) fun _ => trivial
  · trivial

theorem takes_apply (direction : Direction) (sequence : Nat) (script : Script) (text : String)
    (tx : Transaction) : Takes P (runner.apply direction sequence script text tx) := by
  unfold apply
  refine takes_bind (takes_callHook hhooks _ _ tx) fun tx => ?_
  refine takes_bind (takes_adapt _ (Access.takes_executeAll hP tx _)) fun tx => ?_
  refine takes_bind (takes_callHook hhooks _ _ tx) fun tx => ?_
  exact takes_bind (takes_writeLedger hP direction _ tx) fun _ => trivial

theorem takes_applyAlone (direction : Direction) (sequence : Nat) (script : Script) :
    Takes P (runner.applyAlone direction sequence script) :=
  takes_bind (takes_result _) fun text =>
    Access.takes_inTransaction hP (takes_apply hP hhooks direction sequence script text)

/-! ## Runs -/

theorem takes_applyOneByOne (direction : Direction) (scripts : List Script) (sequence : Nat) :
    Takes P (runner.applyOneByOne direction sequence scripts) := by
  induction scripts generalizing sequence with
  | nil =>
    rw [applyOneByOne]
    exact takes_bind (takes_adapt _ (takes_callHookAlone hP hhooks _)) fun _ => trivial
  | cons script rest ih =>
    -- a fault of the script is part of its result, and the outcomes of the rest follow in any case
    rw [applyOneByOne]
    refine takes_mk_bind (takes_applyAlone hP hhooks direction sequence script) fun result => ?_
    cases result with
    | error failure => trivial
    | ok n =>
      -- to list the outcomes of the rest takes no step
      refine everyStep_bind (ih (sequence + 1)) fun result => ?_
      cases result <;> trivial

theorem takes_applyTogether (direction : Direction) (scripts : List Script) (sequence : Nat)
    (tx : Transaction) : Takes P (runner.applyTogether direction sequence scripts tx) := by
  induction scripts generalizing sequence tx with
  | nil =>
    rw [applyTogether]
    exact takes_bind (takes_adapt _ (takes_callHook hhooks _ none tx)) fun _ => trivial
  | cons script rest ih =>
    rw [applyTogether]
    refine takes_mk_bind (takes_bind (takes_result _) fun text =>
      takes_apply hP hhooks direction sequence script text tx) fun result => ?_
    cases result with
    | error failure => trivial
    | ok applied =>
      refine everyStep_bind (ih (sequence + 1) applied.1) fun result => ?_
      cases result <;> trivial

theorem takes_runMode (plan : Plan) : Takes P (runner.runMode plan) := by
  unfold runMode
  split
  · exact takes_bind (takes_adapt _ (takes_callHookAlone hP hhooks _)) fun _ =>
      takes_applyOneByOne hP hhooks _ _ 0
  · refine takes_map _ (takes_adapt _ (Access.takes_inTransaction hP fun tx => ?_))
    exact takes_bind (takes_adapt _ (takes_callHook hhooks _ none tx)) fun tx =>
      takes_applyTogether hP hhooks _ _ 0 tx

theorem takes_runScripts (plan : Plan) : Takes P (runner.runScripts plan) := by
  unfold runScripts
  by_cases hup : plan.direction.isUp = true
  · rw [if_pos hup]
    exact takes_bind (takes_adapt _ (Ledger.takes_ensure hP)) fun _ =>
      takes_runMode hP hhooks plan
  · rw [if_neg hup]
    exact takes_runMode hP hhooks plan

theorem takes_run (plan : Plan) : Takes P (runner.run plan) := by
  rw [run_eq]
  refine takes_bind (takes_lift ?_) fun _ => takes_result _
  by_cases hidle : plan.isEmpty = true
  · rw [execute_idle hidle]
    trivial
  · rw [execute_busy (by simpa using hidle)]
    exact everyStep_bind (takes_runScripts hP hhooks plan) (everyStep_conclude hP)

end Hooks

end Runner

end Migrations

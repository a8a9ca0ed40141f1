import Migrations.Proofs.Run.Execution

/-!
# Runners that Agree

A run in one direction uses the hooks of that direction only, and of those only what comes of
calling them.  So a runner can be exchanged for another one as long as calls of these hooks end in
the same ways.

## Main statements

- `Runner.Agrees.ends_apply`: a script ends in the same ways.
- `Runner.Agrees.run_execute`: so does an execution.
- `Runner.agrees_during`: the hooks of the other direction play no part.
-/

namespace Migrations

open Attempt

/-- The hooks of runs in one direction, without all others. -/
def Hooks.during (hooks : Hooks) (direction : Direction) : Hooks :=
  { hooks with
    find? := fun slot => if slot.direction? = some direction then hooks.find? slot else none }

theorem Hooks.find?_during {hooks : Hooks} {direction : Direction} {slot : HookSlot}
    (h : slot.direction? = some direction) :
    (hooks.during direction).find? slot = hooks.find? slot :=
  if_pos h

/-- What is true of the hooks of a direction is true of all that are left. -/
theorem Hooks.during_all {hooks : Hooks} {direction : Direction} {P : Hook → Prop}
    (h : ∀ slot hook, slot.direction? = some direction → hooks.find? slot = some hook → P hook) :
    ∀ slot hook, (hooks.during direction).find? slot = some hook → P hook := by
  intro slot hook hfind
  by_cases hslot : slot.direction? = some direction
  · exact h slot hook hslot ((find?_during hslot).symm.trans hfind)
  · rw [during] at hfind
    simp [hslot] at hfind

namespace Runner

/-- The other runner has the same ledger and the same ways, and calls of hooks in runs in the
direction end in the same ways. -/
structure Agrees (runner other : Runner) (direction : Direction) : Prop where
  ledger : other.ledger = runner.ledger
  rules : other.rules = runner.rules
  mode : other.mode = runner.mode
  onAbort : other.onAbort = runner.onAbort
  has : ∀ slot, slot.direction? = some direction → other.hooks.has slot = runner.hooks.has slot
  call : ∀ slot, slot.direction? = some direction → ∀ {change? tx world ok error},
    Ends (other.callHook slot change? tx) world ok error ↔
      Ends (runner.callHook slot change? tx) world ok error

namespace Agrees

variable {runner other : Runner} {direction : Direction} {sequence : Nat} {world : World}

section Scripts

variable (h : runner.Agrees other direction)

include h

theorem ends_callHookAlone {slot : HookSlot} {ok : Unit → World → Prop}
    {error : Failure → World → Prop} (hslot : slot.direction? = some direction) :
    Ends (other.callHookAlone slot) world ok error ↔
      Ends (runner.callHookAlone slot) world ok error := by
  rw [ends_callHookAlone_eq, ends_callHookAlone_eq, h.has slot hslot, h.call slot hslot]

theorem writeLedger_eq (change : Change) (tx : Transaction) :
    other.writeLedger direction change tx = runner.writeLedger direction change tx := by
  cases direction with
  | up => rw [writeLedger, writeLedger, h.ledger]
  | down => rw [writeLedger, writeLedger, h.ledger]

theorem ends_apply {script : Script} {text : String} {tx : Transaction}
    {ok : Transaction × Nat → World → Prop} {error : Failure → World → Prop} :
    Ends (other.apply direction sequence script text tx) world ok error ↔
      Ends (runner.apply direction sequence script text tx) world ok error := by
  rw [ends_apply_eq, ends_apply_eq, h.call _ rfl, h.rules]
  -- what comes after the first hook is compared in every world that it leaves
  simp only [h.call (.afterEach direction) rfl, h.writeLedger_eq]

theorem ends_applyOneByOne {scripts : List Script} {ok : List Outcome → World → Prop}
    {error : List Outcome × Failure → World → Prop} :
    Ends (other.applyOneByOne direction sequence scripts) world ok error ↔
      Ends (runner.applyOneByOne direction sequence scripts) world ok error := by
  induction scripts generalizing sequence world ok error with
  | nil => rw [ends_applyOneByOne_nil, ends_applyOneByOne_nil, h.ends_callHookAlone rfl]
  | cons script rest ih =>
    rw [ends_applyOneByOne_cons, ends_applyOneByOne_cons, ends_applyAlone_eq, ends_applyAlone_eq]
    simp only [h.ends_apply, ih]

theorem ends_applyTogether {scripts : List Script} {tx : Transaction}
    {ok : Transaction × List Outcome → World → Prop}
    {error : List Outcome × Failure → World → Prop} :
    Ends (other.applyTogether direction sequence scripts tx) world ok error ↔
      Ends (runner.applyTogether direction sequence scripts tx) world ok error := by
  induction scripts generalizing sequence tx world ok error with
  | nil => rw [ends_applyTogether_nil, ends_applyTogether_nil, h.call _ rfl]
  | cons script rest ih =>
    rw [ends_applyTogether_cons, ends_applyTogether_cons]
    simp only [h.ends_apply, ih]

end Scripts

/-! ## Runs -/

variable {plan : Plan} (h : runner.Agrees other plan.direction)

include h

theorem ends_runMode {ok : List Outcome → World → Prop}
    {error : List Outcome × Failure → World → Prop} :
    Ends (other.runMode plan) world ok error ↔ Ends (runner.runMode plan) world ok error := by
  unfold runMode
  rw [h.mode]
  cases runner.mode with
  | perScript =>
    rw [ends_runPerScript_eq, ends_runPerScript_eq, h.ends_callHookAlone rfl]
    simp only [h.ends_applyOneByOne]
  | perPlan =>
    rw [ends_runPerPlan_eq, ends_runPerPlan_eq, h.call _ rfl]
    simp only [h.ends_applyTogether]

theorem run_runScripts :
    (other.runScripts plan).run.run world = (runner.runScripts plan).run.run world := by
  refine run_eq_of_ends fun ok error => ?_
  have hstart : other.start plan world = runner.start plan world := by
    rw [start, start, h.ledger]
  rw [ends_runScripts, ends_runScripts, h.ledger, hstart, h.ends_runMode]

theorem conclude_eq : other.conclude plan = runner.conclude plan := by
  have habort : other.abort = runner.abort := by
    rw [abort, abort, h.onAbort, h.rules]
  funext result
  rw [conclude.eq_def, conclude.eq_def, habort]

/-- An execution goes the same way with hooks that agree. -/
theorem run_execute : (other.execute plan).run world = (runner.execute plan).run world := by
  by_cases hidle : plan.isEmpty = true
  · rw [execute_idle hidle, execute_idle hidle]
  · have hbusy : plan.isEmpty = false := by simpa using hidle
    rw [execute_busy hbusy, execute_busy hbusy, Procedure.run_bind, Procedure.run_bind,
      h.run_runScripts, h.conclude_eq]

theorem ends_run {ok : Report → World → Prop} {error : Failure → World → Prop} :
    Ends (other.run plan) world ok error ↔ Ends (runner.run plan) world ok error := by
  rw [run_eq, run_eq, ends_bind, ends_bind, ends_lift, ends_lift, h.run_execute]

end Agrees

/-- The hooks of the other direction, and those around new scripts, are never called. -/
theorem agrees_during (runner : Runner) (direction : Direction) :
    runner.Agrees { runner with hooks := runner.hooks.during direction } direction where
  ledger := rfl
  rules := rfl
  mode := rfl
  onAbort := rfl
  has slot hslot := by
    rw [Hooks.has, Hooks.has, Hooks.find?_during hslot]
  call slot hslot {change? tx world ok error} := by
    rw [ends_callHook_eq, ends_callHook_eq, Hooks.find?_during hslot]
    rfl

end Runner

end Migrations

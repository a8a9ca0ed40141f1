import Migrations.Proofs.Hook.Silent
import Migrations.Proofs.Ledger
import Migrations.Run.Runner

/-!
# The Schedule of Hooks

The hook calls of a run follow one schedule, whatever its mode is: the hook before the run, for each
script the hook before it and the hook after it, and the hook after the run.  Slots without a hook
are left out.  A run that fails has made the first calls of the schedule, and which ones follows
from why it failed.

## Main statements

- `Hooks.schedule`: the calls of a plan, each with its context.
- `Runner.RunFails`: why a run fails, and the calls that it has made by then.
- `Runner.RunFails.scheduled`: these are the first calls of the schedule.
-/

namespace Migrations

/-! ## Contexts -/

namespace Hooks

/-- The context of a hook around a run. -/
def runContext (hooks : Hooks) (phase : HookPhase) (direction : Direction) : HookContext where
  phase := phase
  direction := some direction
  change := none
  description := none
  filename := none
  layout := hooks.layout
  vars := hooks.vars
  sequence := 0

/-- The context of a hook around the script at a position of the run. -/
def scriptContext (hooks : Hooks) (phase : HookPhase) (direction : Direction) (sequence : Nat)
    (script : Script) : HookContext where
  phase := phase
  direction := some direction
  change := some {
    id := script.id
    description := script.description
    filename := some script.filename }
  description := some script.description
  filename := some script.filename
  layout := hooks.layout
  vars := hooks.vars
  sequence := sequence

/-- The call of the hook at a slot, if there is one. -/
def callAt (hooks : Hooks) (slot : HookSlot) (context : HookContext) : List HookCall :=
  if hooks.has slot then [⟨slot, context⟩] else []

theorem callAt_of_find {hooks : Hooks} {slot : HookSlot} {hook : Hook}
    (h : hooks.find? slot = some hook) (context : HookContext) :
    hooks.callAt slot context = [⟨slot, context⟩] :=
  if_pos (by simp [has, h])

theorem callAt_of_none {hooks : Hooks} {slot : HookSlot} (h : hooks.find? slot = none)
    (context : HookContext) : hooks.callAt slot context = [] :=
  if_neg (by simp [has, h])

/-! ## The schedule -/

def opening (hooks : Hooks) (direction : Direction) : List HookCall :=
  hooks.callAt (.before direction) (hooks.runContext .before direction)

def closing (hooks : Hooks) (direction : Direction) : List HookCall :=
  hooks.callAt (.after direction) (hooks.runContext .after direction)

def beforeScript (hooks : Hooks) (direction : Direction) (sequence : Nat) (script : Script) :
    List HookCall :=
  hooks.callAt (.beforeEach direction) (hooks.scriptContext .beforeEach direction sequence script)

def afterScript (hooks : Hooks) (direction : Direction) (sequence : Nat) (script : Script) :
    List HookCall :=
  hooks.callAt (.afterEach direction) (hooks.scriptContext .afterEach direction sequence script)

/-- The calls for one script. -/
def aroundScript (hooks : Hooks) (direction : Direction) (sequence : Nat) (script : Script) :
    List HookCall :=
  hooks.beforeScript direction sequence script ++ hooks.afterScript direction sequence script

/-- The calls for scripts from a position of the run on. -/
def aroundScripts (hooks : Hooks) (direction : Direction) (sequence : Nat)
    (scripts : List Script) : List HookCall :=
  (scripts.zipIdx sequence).flatMap fun (script, i) => hooks.aroundScript direction i script

/-- The calls of a run, each of them once and in their order; there are none without scripts. -/
def schedule (hooks : Hooks) (plan : Plan) : List HookCall :=
  if plan.isEmpty then []
  else hooks.opening plan.direction ++ hooks.aroundScripts plan.direction 0 plan.scripts ++
    hooks.closing plan.direction

variable {hooks : Hooks} {direction : Direction}

theorem aroundScripts_cons (sequence : Nat) (script : Script) (rest : List Script) :
    hooks.aroundScripts direction sequence (script :: rest) =
      hooks.aroundScript direction sequence script ++
        hooks.aroundScripts direction (sequence + 1) rest := rfl

theorem aroundScripts_append (sequence : Nat) (done rest : List Script) :
    hooks.aroundScripts direction sequence (done ++ rest) =
      hooks.aroundScripts direction sequence done ++
        hooks.aroundScripts direction (sequence + done.length) rest := by
  rw [aroundScripts, List.zipIdx_append, List.flatMap_append]
  rfl

theorem schedule_of_isEmpty {plan : Plan} (h : plan.isEmpty = true) : hooks.schedule plan = [] :=
  if_pos h

theorem schedule_of_busy {plan : Plan} (h : plan.isEmpty = false) :
    hooks.schedule plan = hooks.opening plan.direction ++
      hooks.aroundScripts plan.direction 0 plan.scripts ++ hooks.closing plan.direction :=
  if_neg (by simp [h])

/-! The schedule depends on which slots have hooks, and not on what the hooks do. -/

theorem callAt_masked (slot : HookSlot) (context : HookContext) :
    hooks.masked.callAt slot context = hooks.callAt slot context := by
  have hhas : hooks.masked.has slot = hooks.has slot := Option.isSome_map
  rw [callAt, hhas, callAt]

theorem opening_masked : hooks.masked.opening direction = hooks.opening direction :=
  callAt_masked _ _

theorem closing_masked : hooks.masked.closing direction = hooks.closing direction :=
  callAt_masked _ _

theorem beforeScript_masked (sequence : Nat) (script : Script) :
    hooks.masked.beforeScript direction sequence script =
      hooks.beforeScript direction sequence script :=
  callAt_masked _ _

theorem aroundScript_masked (sequence : Nat) (script : Script) :
    hooks.masked.aroundScript direction sequence script =
      hooks.aroundScript direction sequence script := by
  rw [aroundScript, beforeScript_masked, afterScript, callAt_masked]
  rfl

theorem aroundScripts_masked (sequence : Nat) (scripts : List Script) :
    hooks.masked.aroundScripts direction sequence scripts =
      hooks.aroundScripts direction sequence scripts := by
  simp only [aroundScripts, aroundScript_masked]

theorem schedule_masked (plan : Plan) : hooks.masked.schedule plan = hooks.schedule plan := by
  rw [schedule, opening_masked, aroundScripts_masked, closing_masked, schedule]

end Hooks

/-! ## Calls before a failure -/

namespace Runner

/-- Why one script of a run fails, and the calls that were made for it by then: the call of a hook
that fails is the last one. -/
inductive ScriptFails (runner : Runner) (direction : Direction) (sequence : Nat)
    (script : Script) : Failure → List HookCall → Prop where
  /-- The script has no section for the direction. -/
  | irreversible {failure : Failure} (htext : script.text direction = .error failure) :
    ScriptFails runner direction sequence script failure []
  | before {hook : Hook} (hfind : runner.hooks.find? (.beforeEach direction) = some hook)
    (fault : HookFault) :
    ScriptFails runner direction sequence script
      (.hook hook.name .beforeEach (some script.id) fault)
      (runner.hooks.beforeScript direction sequence script)
  | statement (fault : DatabaseFault) :
    ScriptFails runner direction sequence script (.execution script.id (.database fault))
      (runner.hooks.beforeScript direction sequence script)
  | after {hook : Hook} (hfind : runner.hooks.find? (.afterEach direction) = some hook)
    (fault : HookFault) :
    ScriptFails runner direction sequence script
      (.hook hook.name .afterEach (some script.id) fault)
      (runner.hooks.aroundScript direction sequence script)
  /-- The ledger refuses the row of the script. -/
  | row (fault : DatabaseFault) :
    ScriptFails runner direction sequence script
      (.persistence (.refused .write runner.ledger.table fault))
      (runner.hooks.aroundScript direction sequence script)

/-- Why scripts fail that are executed from a position of the run on, and the calls that were made
for them by then: one of them fails after the ones before it, or the hook after the run does. -/
inductive ScriptsFail (runner : Runner) (direction : Direction) (sequence : Nat)
    (scripts : List Script) : Failure → List HookCall → Prop where
  | script {done rest : List Script} {script : Script} {failure : Failure}
    {calls : List HookCall} (hscripts : scripts = done ++ script :: rest)
    (hfails : runner.ScriptFails direction (sequence + done.length) script failure calls) :
    ScriptsFail runner direction sequence scripts failure
      (runner.hooks.aroundScripts direction sequence done ++ calls)
  | closing {hook : Hook} (hfind : runner.hooks.find? (.after direction) = some hook)
    (fault : HookFault) :
    ScriptsFail runner direction sequence scripts (.hook hook.name .after none fault)
      (runner.hooks.aroundScripts direction sequence scripts ++ runner.hooks.closing direction)

/-- Why a run fails, and the calls that it has made by then. -/
inductive RunFails (runner : Runner) (plan : Plan) : Failure → List HookCall → Prop where
  /-- The ledger's table cannot be created. -/
  | ledger (hup : plan.direction.isUp) : RunFails runner plan runner.ledger.refusal []
  | opening {hook : Hook} (hfind : runner.hooks.find? (.before plan.direction) = some hook)
    (fault : HookFault) :
    RunFails runner plan (.hook hook.name .before none fault)
      (runner.hooks.opening plan.direction)
  | scripts {failure : Failure} {calls : List HookCall}
    (hfails : runner.ScriptsFail plan.direction 0 plan.scripts failure calls) :
    RunFails runner plan failure (runner.hooks.opening plan.direction ++ calls)

variable {runner : Runner} {direction : Direction} {sequence : Nat}

/-- Whatever stops the first script, nothing is called for the others. -/
theorem ScriptsFail.head {script : Script} {rest : List Script} {failure : Failure}
    {calls : List HookCall} (h : runner.ScriptFails direction sequence script failure calls) :
    runner.ScriptsFail direction sequence (script :: rest) failure calls :=
  .script (List.nil_append _).symm h

/-- A script that was executed before does not change how the others fail. -/
theorem ScriptsFail.cons {rest : List Script} {failure : Failure} {calls : List HookCall}
    (h : runner.ScriptsFail direction (sequence + 1) rest failure calls) (script : Script) :
    runner.ScriptsFail direction sequence (script :: rest) failure
      (runner.hooks.aroundScript direction sequence script ++ calls) := by
  cases h with
  | @script done others last _ more hscripts hfails =>
    have hlater : runner.ScriptsFail direction sequence (script :: rest) failure
        (runner.hooks.aroundScripts direction sequence (script :: done) ++ more) := by
      -- the positions of the others were counted from the one after this script
      have hposition : sequence + (script :: done).length = sequence + 1 + done.length := by
        simp only [List.length_cons]
        omega
      exact .script (congrArg (script :: ·) hscripts) (hposition ▸ hfails)
    rwa [Hooks.aroundScripts_cons, List.append_assoc] at hlater
  | closing hfind fault =>
    rw [← List.append_assoc, ← Hooks.aroundScripts_cons]
    exact .closing hfind fault

theorem ScriptFails.scheduled {script : Script} {failure : Failure} {calls : List HookCall}
    (h : runner.ScriptFails direction sequence script failure calls) :
    calls <+: runner.hooks.aroundScript direction sequence script := by
  -- a failure before the first hook has no calls, one behind the second hook has both
  cases h with
  | irreversible => exact ⟨_, rfl⟩
  | before | statement => exact List.prefix_append _ _
  | after | row => exact List.prefix_refl _

theorem ScriptsFail.scheduled {scripts : List Script} {failure : Failure} {calls : List HookCall}
    (h : runner.ScriptsFail direction sequence scripts failure calls) :
    calls <+: runner.hooks.aroundScripts direction sequence scripts ++
      runner.hooks.closing direction := by
  cases h with
  | script hscripts hfails =>
    rw [hscripts, Hooks.aroundScripts_append, Hooks.aroundScripts_cons, List.append_assoc,
      List.append_assoc]
    exact (List.prefix_append_right_inj _).mpr (hfails.scheduled.trans (List.prefix_append _ _))
  | closing => exact List.prefix_refl _

/-- The calls before a failure are the first ones of the schedule. -/
theorem RunFails.scheduled {plan : Plan} {failure : Failure} {calls : List HookCall}
    (hbusy : plan.isEmpty = false) (h : runner.RunFails plan failure calls) :
    calls <+: runner.hooks.schedule plan := by
  rw [Hooks.schedule_of_busy hbusy, List.append_assoc]
  cases h with
  | ledger => exact ⟨_, rfl⟩
  | opening => exact List.prefix_append _ _
  | scripts hfails => exact (List.prefix_append_right_inj _).mpr hfails.scheduled

end Runner

end Migrations

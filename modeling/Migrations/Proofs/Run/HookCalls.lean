import Migrations.Proofs.Run.Agreement
import Migrations.Proofs.Run.Schedule
import Migrations.Proofs.Run.Steps

/-!
# The Hook Calls of Runs

A run calls its hooks as the schedule says, up to its failure if it fails.

Hooks can do anything, so what a hook does is told apart from what the run does with it: the calls
of a run are counted with the calls that its hooks make left aside.  That changes nothing about how
the run goes.

## Main statements

- `Runner.dispatches_apply`: the calls for one script.
- `Runner.dispatches_runMode`: both modes make the calls of the schedule.
- `Runner.execute_calls`: so does every execution, up to its failure if it fails.
- `Runner.hookCalls_of_silent`: there are no other calls when hooks call no hooks themselves.
-/

namespace Migrations

open Attempt

/-! ## Calls of runs -/

namespace Runner

variable {runner : Runner} {direction : Direction} {sequence : Nat} {before : List HookCall}

/-- A hook at a slot is called once, and nothing is called without one. -/
theorem dispatches_callHook (hsilent : runner.hooks.Silent) (slot : HookSlot)
    (change? : Option (Change × Nat)) (tx : Transaction) :
    Dispatches (runner.callHook slot change? tx) before
      (· = before ++ runner.hooks.callAt slot (runner.hookContext slot change?))
      (fun failure now => ∃ hook fault, runner.hooks.find? slot = some hook ∧
        failure = .hook hook.name slot.phase (change?.map fun change => change.1.id) fault ∧
        now = before ++ runner.hooks.callAt slot (runner.hookContext slot change?)) := by
  rw [callHook_eq, Hooks.dispatch]
  cases hfind : runner.hooks.find? slot with
  | none =>
    rw [Hooks.callAt_of_none hfind, List.append_nil]
    exact dispatches_pure _ rfl
  | some hook =>
    -- the mark is the call; what the hook does after it calls no hooks
    rw [Hooks.callAt_of_find hfind]
    refine dispatches_bind (dispatches_bind (dispatches_mark rfl)
      fun _ now hnow => dispatches_adapt _ ?_) fun _ _ h => dispatches_pure _ h
    rw [← hnow]
    refine dispatches_of_silent (hsilent slot hook hfind _ (some tx)) fun world =>
      (ends_run_self _ world).mono (fun _ _ _ => rfl) fun fault _ _ =>
        ⟨hook, fault, rfl, ?_, rfl⟩
    rw [change_hookContext, Option.map_map]
    rfl

theorem dispatches_callHookAlone (hsilent : runner.hooks.Silent) (slot : HookSlot) :
    Dispatches (runner.callHookAlone slot) before
      (· = before ++ runner.hooks.callAt slot (runner.hookContext slot none))
      (fun failure now => ∃ hook fault, runner.hooks.find? slot = some hook ∧
        failure = .hook hook.name slot.phase none fault ∧
        now = before ++ runner.hooks.callAt slot (runner.hookContext slot none)) := by
  unfold callHookAlone
  cases hfind : runner.hooks.find? slot with
  | none =>
    rw [if_neg (by simp [Hooks.has, hfind]), Hooks.callAt_of_none hfind, List.append_nil]
    exact dispatches_pure _ rfl
  | some hook =>
    rw [if_pos (by simp [Hooks.has, hfind])]
    -- the transaction around the hook calls nothing itself
    rw [← hfind]
    exact Access.dispatches_inTransaction
      (dispatches_bind (dispatches_callHook hsilent slot none {}) fun _ _ h => dispatches_pure _ h)

/-- The calls for a script whose text is known. -/
theorem dispatches_apply (hsilent : runner.hooks.Silent) (script : Script) (text : String)
    (tx : Transaction) :
    Dispatches (runner.apply direction sequence script text tx) before
      (· = before ++ runner.hooks.aroundScript direction sequence script)
      (fun failure now => ∃ calls, runner.ScriptFails direction sequence script failure calls ∧
        now = before ++ calls) := by
  unfold apply
  -- the hook before the script: its call is made even when it fails
  refine dispatches_bind ((dispatches_callHook hsilent _ _ tx).mono (fun _ h => h) ?_) ?_
  · rintro _ _ ⟨hook, fault, hfind, rfl, rfl⟩
    exact ⟨_, .before hfind fault, rfl⟩
  rintro t _ rfl
  -- the statements call nothing, so a failure among them leaves that one call
  refine dispatches_bind (dispatches_adapt _ (dispatches_of_silent
    (Access.takes_executeAll ordinary_silent t _) fun world => (ends_run_self _ world).mono
      (fun _ _ _ => rfl) fun fault _ _ => ?_)) ?_
  · exact ⟨_, .statement fault, rfl⟩
  rintro u _ rfl
  -- the hook after the script, and then its row, which calls nothing either
  refine dispatches_bind ((dispatches_callHook hsilent _ _ u).mono (fun _ h => h) ?_) ?_
  · rintro _ _ ⟨hook, fault, hfind, rfl, rfl⟩
    exact ⟨_, .after hfind fault, List.append_assoc _ _ _⟩
  rintro v _ rfl
  refine dispatches_bind (dispatches_of_silent (takes_writeLedger ordinary_silent _ _ v)
    fun world => (ends_writeLedger_row script v).mono (fun _ _ _ => rfl) ?_) ?_
  · rintro _ _ ⟨-, fault, rfl⟩
    exact ⟨_, .row fault, List.append_assoc _ _ _⟩
  · rintro w _ rfl
    exact dispatches_pure _ (List.append_assoc _ _ _)

/-- A script calls nothing when it has no section for the direction. -/
theorem dispatches_section {α : Type} {script : Script} {attempt : String → Attempt Failure α}
    {ok : List HookCall → Prop}
    (h : ∀ text, (attempt text).Dispatches before ok
      (fun failure now => ∃ calls, runner.ScriptFails direction sequence script failure calls ∧
        now = before ++ calls)) :
    Dispatches (liftM (script.text direction) >>= attempt) before ok
      (fun failure now => ∃ calls, runner.ScriptFails direction sequence script failure calls ∧
        now = before ++ calls) := by
  refine dispatches_bind (dispatches_result (fun _ _ => rfl) fun failure htext =>
    ⟨[], .irreversible htext, (List.append_nil _).symm⟩) ?_
  rintro text _ rfl
  exact h text

/-! ## Scripts from one to the next -/

theorem dispatches_applyOneByOne (hsilent : runner.hooks.Silent) (scripts : List Script) :
    Dispatches (runner.applyOneByOne direction sequence scripts) before
      (· = before ++ (runner.hooks.aroundScripts direction sequence scripts ++
        runner.hooks.closing direction))
      (fun failure now => ∃ calls,
        runner.ScriptsFail direction sequence scripts failure.2 calls ∧
        now = before ++ calls) := by
  -- the calls before a script are those of the run up to it, so they grow with the induction
  induction scripts generalizing sequence before with
  | nil =>
    rw [applyOneByOne]
    refine dispatches_bind (dispatches_adapt _ ((dispatches_callHookAlone hsilent _).mono
      (fun _ h => h) ?_)) fun _ _ h => dispatches_pure _ h
    rintro _ _ ⟨hook, fault, hfind, rfl, rfl⟩
    exact ⟨_, .closing hfind fault, rfl⟩
  | cons script rest ih =>
    rw [applyOneByOne]
    refine dispatches_mk_bind (dispatches_section fun text =>
      Access.dispatches_inTransaction (dispatches_apply hsilent script text {})) ?_ ?_
    · rintro n _ rfl
      refine dispatches_mk_bind ih ?_ ?_
      · rintro outcomes _ rfl
        refine dispatches_pure _ ?_
        rw [Hooks.aroundScripts_cons, List.append_assoc, List.append_assoc]
      · rintro ⟨outcomes, failure⟩ _ ⟨calls, hfails, rfl⟩
        exact dispatches_fail _ ⟨_, hfails.cons script, List.append_assoc _ _ _⟩
    · rintro failure _ ⟨calls, hfails, rfl⟩
      exact dispatches_fail _ ⟨_, .head hfails, rfl⟩

theorem dispatches_applyTogether (hsilent : runner.hooks.Silent) (scripts : List Script)
    (tx : Transaction) :
    Dispatches (runner.applyTogether direction sequence scripts tx) before
      (· = before ++ (runner.hooks.aroundScripts direction sequence scripts ++
        runner.hooks.closing direction))
      (fun failure now => ∃ calls,
        runner.ScriptsFail direction sequence scripts failure.2 calls ∧
        now = before ++ calls) := by
  -- as one by one, with the transaction of the whole run at hand
  induction scripts generalizing sequence before tx with
  | nil =>
    rw [applyTogether]
    refine dispatches_bind (dispatches_adapt _ ((dispatches_callHook hsilent _ none tx).mono
      (fun _ h => h) ?_)) fun _ _ h => dispatches_pure _ h
    rintro _ _ ⟨hook, fault, hfind, rfl, rfl⟩
    exact ⟨_, .closing hfind fault, rfl⟩
  | cons script rest ih =>
    rw [applyTogether]
    refine dispatches_mk_bind (dispatches_section fun text =>
      dispatches_apply hsilent script text tx) ?_ ?_
    · rintro ⟨t, n⟩ _ rfl
      refine dispatches_mk_bind (ih t) ?_ ?_
      · rintro outcomes _ rfl
        refine dispatches_pure _ ?_
        rw [Hooks.aroundScripts_cons, List.append_assoc, List.append_assoc]
      · rintro ⟨outcomes, failure⟩ _ ⟨calls, hfails, rfl⟩
        exact dispatches_fail _ ⟨_, hfails.cons script, List.append_assoc _ _ _⟩
    · rintro failure _ ⟨calls, hfails, rfl⟩
      exact dispatches_fail _ ⟨_, .head hfails, rfl⟩

/-! ## Executions -/

variable {plan : Plan}

/-- Whether every script is a transaction of its own or all of them are one plays no part. -/
theorem dispatches_runMode (hsilent : runner.hooks.Silent) :
    Dispatches (runner.runMode plan) []
      (· = runner.hooks.opening plan.direction ++
        (runner.hooks.aroundScripts plan.direction 0 plan.scripts ++
          runner.hooks.closing plan.direction))
      (fun failure now => runner.RunFails plan failure.2 now) := by
  unfold runMode
  cases runner.mode with
  | perScript =>
    refine dispatches_bind (dispatches_adapt _ ((dispatches_callHookAlone hsilent _).mono
      (fun _ h => h) ?_)) ?_
    · rintro _ _ ⟨hook, fault, hfind, rfl, rfl⟩
      exact .opening hfind fault
    · rintro _ _ rfl
      refine (dispatches_applyOneByOne hsilent _).mono (fun _ h => h) ?_
      rintro _ _ ⟨calls, hfails, rfl⟩
      exact .scripts hfails
  | perPlan =>
    refine dispatches_map _ (dispatches_adapt _ (Access.dispatches_inTransaction ?_))
    refine dispatches_bind (dispatches_adapt _ ((dispatches_callHook hsilent _ none {}).mono
      (fun _ h => h) ?_)) ?_
    · rintro _ _ ⟨hook, fault, hfind, rfl, rfl⟩
      exact .opening hfind fault
    · rintro t _ rfl
      refine (dispatches_applyTogether hsilent _ t).mono (fun _ h => h) ?_
      rintro _ _ ⟨calls, hfails, rfl⟩
      exact .scripts hfails

theorem dispatches_runScripts (hsilent : runner.hooks.Silent) (hbusy : plan.isEmpty = false) :
    Dispatches (runner.runScripts plan) [] (· = runner.hooks.schedule plan)
      (fun failure now => runner.RunFails plan failure.2 now) := by
  rw [Hooks.schedule_of_busy hbusy, List.append_assoc]
  unfold runScripts
  by_cases hup : plan.direction.isUp = true
  · rw [if_pos hup]
    have hensure : Dispatches runner.ledger.ensure [] (· = [])
        (fun failure now => runner.RunFails plan failure now) := by
      refine dispatches_of_silent (Ledger.takes_ensure ordinary_silent) fun world => ?_
      rw [Ledger.ends_ensure]
      split
      · exact .ledger hup
      · rfl
    refine dispatches_bind (dispatches_adapt _ hensure) ?_
    rintro _ _ rfl
    exact dispatches_runMode hsilent
  · rw [if_neg hup]
    exact dispatches_runMode hsilent

/-- An execution makes the calls of its schedule, unless it fails. -/
theorem execute_hookCalls (runner : Runner) (plan : Plan) (hsilent : runner.hooks.Silent)
    (world : World) :
    match ((runner.execute plan).run world).1.2 with
    | .ok _ => (runner.execute plan).hookCalls world = runner.hooks.schedule plan
    | .error failure => plan.isEmpty = false ∧
      runner.RunFails plan failure ((runner.execute plan).hookCalls world) := by
  by_cases hidle : plan.isEmpty = true
  · rw [execute_idle hidle, Hooks.schedule_of_isEmpty hidle]
    rfl
  · have hbusy : plan.isEmpty = false := by simpa using hidle
    have hscripts := dispatches_runScripts hsilent hbusy world
    rw [execute_busy hbusy, Procedure.hookCalls_bind, Procedure.run_bind,
      Procedure.hookCalls_of_silent (everyStep_conclude ordinary_silent _), List.append_nil]
    generalize (runner.runScripts plan).run.run world = ending at hscripts ⊢
    rcases ending with ⟨⟨outcomes, failure⟩ | outcomes, after⟩
    · dsimp only
      rw [run_conclude_error]
      exact ⟨hbusy, hscripts⟩
    · exact hscripts

/-! ## The calls of a run itself -/

/-- The runner whose hooks make no calls of hooks themselves. -/
def masked (runner : Runner) : Runner := { runner with hooks := runner.hooks.masked }

/-- The hooks that an execution calls, in order.  What the hooks do themselves is left aside. -/
def hookCalls (runner : Runner) (plan : Plan) (world : World) : List HookCall :=
  (runner.masked.execute plan).hookCalls world

/-- For hooks that call no hooks, these are all the hook calls there are. -/
theorem hookCalls_of_silent (h : runner.hooks.Silent) (world : World) :
    runner.hookCalls plan world = (runner.execute plan).hookCalls world := by
  rw [hookCalls, masked, Hooks.masked_of_silent h]

theorem ScriptFails.of_masked {script : Script} {failure : Failure} {calls : List HookCall}
    (h : runner.masked.ScriptFails direction sequence script failure calls) :
    runner.ScriptFails direction sequence script failure calls := by
  cases h with
  | irreversible htext => exact .irreversible htext
  | before hfind fault =>
    obtain ⟨hook, hhook, rfl⟩ := Option.map_eq_some_iff.mp hfind
    rw [masked, Hooks.beforeScript_masked]
    exact .before hhook fault
  | statement fault =>
    rw [masked, Hooks.beforeScript_masked]
    exact .statement fault
  | after hfind fault =>
    obtain ⟨hook, hhook, rfl⟩ := Option.map_eq_some_iff.mp hfind
    rw [masked, Hooks.aroundScript_masked]
    exact .after hhook fault
  | row fault =>
    rw [masked, Hooks.aroundScript_masked]
    exact .row fault

theorem ScriptsFail.of_masked {scripts : List Script} {failure : Failure}
    {calls : List HookCall}
    (h : runner.masked.ScriptsFail direction sequence scripts failure calls) :
    runner.ScriptsFail direction sequence scripts failure calls := by
  cases h with
  | script hscripts hfails =>
    rw [masked, Hooks.aroundScripts_masked]
    exact .script hscripts hfails.of_masked
  | closing hfind fault =>
    obtain ⟨hook, hhook, rfl⟩ := Option.map_eq_some_iff.mp hfind
    rw [masked, Hooks.aroundScripts_masked, Hooks.closing_masked]
    exact .closing hhook fault

/-- A run fails for the same reason when the calls that its hooks make are left aside. -/
theorem RunFails.of_masked {failure : Failure} {calls : List HookCall}
    (h : runner.masked.RunFails plan failure calls) : runner.RunFails plan failure calls := by
  cases h with
  | ledger hup => exact .ledger hup
  | opening hfind fault =>
    obtain ⟨hook, hhook, rfl⟩ := Option.map_eq_some_iff.mp hfind
    rw [masked, Hooks.opening_masked]
    exact .opening hhook fault
  | scripts hfails =>
    rw [masked, Hooks.opening_masked]
    exact .scripts hfails.of_masked

/-- An execution goes the same way when the calls that its hooks make are left aside. -/
theorem agrees_masked (runner : Runner) (direction : Direction) :
    runner.Agrees runner.masked direction where
  ledger := rfl
  rules := rfl
  mode := rfl
  onAbort := rfl
  has slot _ := Option.isSome_map
  call slot _ {change? tx world ok error} := by
    have hfind : runner.masked.hooks.find? slot = (runner.hooks.find? slot).map Hook.masked := rfl
    rw [ends_callHook_eq, ends_callHook_eq, hfind]
    cases runner.hooks.find? slot with
    | none => rfl
    | some hook => exact Hook.ends_masked

/-- An execution calls its hooks in the order of the schedule, each of them once and in its context,
whatever the hooks do.  When it succeeds, it has made all the calls.  When it fails, it has made the
calls up to its failure, and none after that.  Without scripts there are no calls. -/
theorem execute_calls (runner : Runner) (plan : Plan) (world : World) :
    runner.hookCalls plan world <+: runner.hooks.schedule plan ∧
    match ((runner.execute plan).run world).1.2 with
    | .ok _ => runner.hookCalls plan world = runner.hooks.schedule plan
    | .error failure => runner.RunFails plan failure (runner.hookCalls plan world) := by
  -- the runner with masked hooks goes the same way, and its schedule and its failures are the same
  have hcalls := execute_hookCalls runner.masked plan runner.hooks.silent_masked world
  have hschedule : runner.masked.hooks.schedule plan = runner.hooks.schedule plan :=
    Hooks.schedule_masked plan
  rw [(runner.agrees_masked plan.direction).run_execute, hschedule] at hcalls
  generalize (runner.execute plan).run world = ending at hcalls ⊢
  obtain ⟨⟨report, failure | _⟩, after⟩ := ending
  · obtain ⟨hbusy, hfails⟩ := hcalls
    exact ⟨hfails.of_masked.scheduled hbusy, hfails.of_masked⟩
  · exact ⟨hcalls ▸ List.prefix_refl _, hcalls⟩

end Runner

end Migrations

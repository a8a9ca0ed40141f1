import Mathlib.Algebra.GroupWithZero.Nat
import Migrations.Proofs.Hook.Setting
import Migrations.Proofs.Run.Outcome

/-!
# Counted Statements

A report says of every script how many of its statements were executed.  When the hooks issue no
statements and there is no abort script, what the log of the database gains in a run are the
statements of the scripts that are reported as committed, as many as their outcomes say.  The other
outcomes report none, but for one case: scripts that are one transaction are all executed when the
hook after them fails, and then the last one, which goes for the one that failed, keeps its number
although its statements are rolled back.

## Main statements

- `Hook.issuesNone_program`: programs issue no statements.
- `Runner.ends_runScripts_settles`: what the scripts of a plan leave in the log, and what is
  reported.
- `Runner.execute_counts_iff`: when the numbers of a report add up to what the log has gained.
-/

namespace Migrations

open Attempt

/-! ## Hooks without statements -/

/-- The statements that a transaction has collected. -/
def Transaction.statements (tx : Transaction) : List String := tx.writes.filterMap Write.statement?

theorem Transaction.log_commit (tx : Transaction) (db : Database) :
    (tx.commit db).log = db.log ++ tx.statements := by
  rw [commit_eq]
  rfl

/-- The hook issues no statements, neither in the transaction that it is given nor past it. -/
def Hook.IssuesNone (hook : Hook) : Prop :=
  ∀ context tx world, Ends (hook.call context (some tx)) world
    (fun tx? after => after.database.log = world.database.log ∧
      (tx?.getD tx).statements = tx.statements)
    (fun _ after => after.database.log = world.database.log)

/-- The hooks issue no statements. -/
def Hooks.IssueNone (hooks : Hooks) : Prop :=
  ∀ slot hook, hooks.find? slot = some hook → hook.IssuesNone

theorem Hook.issuesNone_program (program : HookProgram) : (Hook.program program).IssuesNone :=
  fun _ _ _ => ends_program (fun _ h => ⟨congrArg Database.log h, rfl⟩)
    fun _ _ h => congrArg Database.log h

/-- A hook of the process issues no statements when it leaves the log alone. -/
theorem Hook.issuesNone_callback {name : String}
    {f : HookContext → Database → Except HookFault Unit × Database}
    (h : ∀ context db, (f context db).2.log = db.log) : (Hook.callback name f).IssuesNone := by
  intro context tx world
  have hlog := h context world.database
  unfold callback Access.database
  rw [ends_bind, ends_act]
  revert hlog
  rcases f context world.database with ⟨_ | _, db⟩
  · exact fun hlog => hlog
  · exact fun hlog => ⟨hlog, rfl⟩

/-! ## Tallies -/

namespace Outcome

/-- How many statements outcomes report together. -/
def total (outcomes : List Outcome) : Nat := (outcomes.map Outcome.statements).sum

@[simp] theorem total_nil : total [] = 0 := rfl

@[simp] theorem total_cons (outcome : Outcome) (rest : List Outcome) :
    total (outcome :: rest) = outcome.statements + total rest := by
  simp [total]

theorem total_eq_zero {outcomes : List Outcome} :
    total outcomes = 0 ↔ ∀ outcome ∈ outcomes, outcome.statements = 0 := by
  rw [total, List.sum_eq_zero_iff_forall_eq_nat, List.forall_mem_map]

@[simp] theorem total_pending (scripts : List Script) : total (scripts.map pending) = 0 := by
  rw [total_eq_zero, List.forall_mem_map]
  exact fun _ _ => rfl

theorem total_append (outcomes others : List Outcome) :
    total (outcomes ++ others) = total outcomes + total others := by
  simp [total]

/-- The outcomes of committed scripts. -/
def committed (outcomes : List Outcome) : List Outcome :=
  outcomes.filter fun outcome => outcome.state = .committed

/-- The outcomes of all other scripts. -/
def others (outcomes : List Outcome) : List Outcome :=
  outcomes.filter fun outcome => ¬ outcome.state = .committed

theorem total_eq (outcomes : List Outcome) :
    total outcomes = total (committed outcomes) + total (others outcomes) := by
  induction outcomes with
  | nil => rfl
  | cons outcome rest ih =>
    by_cases hstate : outcome.state = .committed
    · simp [committed, others, hstate] at ih ⊢
      omega
    · simp [committed, others, hstate] at ih ⊢
      omega

end Outcome

/-- Between two worlds the log has gained as many statements as the outcomes of committed scripts
report, and the other outcomes report the excess. -/
structure Tallied (before after : World) (outcomes : List Outcome) (excess : Nat) : Prop where
  log : ∃ added, after.database.log = before.database.log ++ added ∧
    Outcome.total (Outcome.committed outcomes) = added.length
  rest : Outcome.total (Outcome.others outcomes) = excess

namespace Tallied

variable {before now after : World} {outcomes : List Outcome} {excess : Nat}

/-- A run that has committed nothing. -/
theorem nothing (hlog : after.database.log = before.database.log)
    (hnone : Outcome.committed outcomes = []) (hrest : Outcome.total outcomes = excess) :
    Tallied before after outcomes excess where
  log := ⟨[], by simp [hlog], by rw [hnone]; rfl⟩
  rest := by
    rw [Outcome.total_eq, hnone, Outcome.total_nil, Nat.zero_add] at hrest
    exact hrest

theorem pending (hlog : after.database.log = before.database.log) (scripts : List Script) :
    Tallied before after (scripts.map .pending) 0 :=
  nothing hlog (by simp [Outcome.committed, Outcome.pending]) (Outcome.total_pending scripts)

/-- When the log has been the same for some time before. -/
theorem of_log (hlog : now.database.log = before.database.log)
    (h : Tallied now after outcomes excess) : Tallied before after outcomes excess where
  log := hlog ▸ h.log
  rest := h.rest

/-- A script that was committed before the others. -/
theorem cons {statements : List String} (script : Script)
    (hlog : now.database.log = before.database.log ++ statements)
    (h : Tallied now after outcomes excess) :
    Tallied before after (.reached script .committed statements.length :: outcomes) excess where
  log := by
    obtain ⟨added, hadded, htotal⟩ := h.log
    refine ⟨statements ++ added, by rw [hadded, hlog, List.append_assoc], ?_⟩
    simp only [Outcome.committed] at htotal
    simp [Outcome.committed, Outcome.reached, htotal]
  rest := by simpa [Outcome.others, Outcome.reached] using h.rest

end Tallied

namespace Runner

variable {runner : Runner} {direction : Direction} {world : World}

/-! ## One script -/

/-- The statements of a script, none when it has no section for the direction. -/
def sectionStatements (runner : Runner) (direction : Direction) (script : Script) : List String :=
  match script.text direction with
  | .ok text => runner.rules.statements text
  | .error _ => []

section Hooks

variable (hhooks : runner.hooks.IssueNone)
include hhooks

theorem ends_callHook_log (slot : HookSlot) (change? : Option (Change × Nat)) (tx : Transaction) :
    Ends (runner.callHook slot change? tx) world
      (fun result after => after.database.log = world.database.log ∧
        result.statements = tx.statements)
      (fun _ after => after.database.log = world.database.log) := by
  rw [ends_callHook_eq]
  cases hfind : runner.hooks.find? slot with
  | none => exact ⟨rfl, rfl⟩
  | some hook => exact hhooks slot hook hfind _ tx world

/-- A hook with a transaction of its own leaves the log alone, too. -/
theorem ends_callHookAlone_log (slot : HookSlot) :
    Ends (runner.callHookAlone slot) world
      (fun _ after => after.database.log = world.database.log)
      (fun _ after => after.database.log = world.database.log) := by
  rw [ends_callHookAlone_eq]
  split
  · refine (ends_callHook_log hhooks slot none {}).mono (fun tx after h => ?_) fun _ _ h => h
    rw [Transaction.log_commit, h.1, h.2]
    exact List.append_nil _
  · rfl

/-- A script adds its own statements to its transaction, and says how many they are. -/
theorem ends_apply_log (sequence : Nat) (script : Script) (text : String) (tx : Transaction) :
    Ends (runner.apply direction sequence script text tx) world
      (fun result after => after.database.log = world.database.log ∧
        result.1.statements = tx.statements ++ runner.rules.statements text ∧
        result.2 = (runner.rules.statements text).length)
      (fun _ after => after.database.log = world.database.log) := by
  rw [ends_apply_eq]
  refine (ends_callHook_log hhooks _ _ tx).mono (fun t now hbefore => ?_) fun _ _ h => h
  split
  · refine (ends_callHook_log hhooks _ _ _).mono (fun u later hafter => ?_)
      fun _ _ h => h.trans hbefore.1
    refine (ends_writeLedger_row script u).mono (fun v last h => ?_) fun _ _ h => ?_
    · obtain ⟨hdatabase, row, hrow, rfl⟩ := h
      -- the row is no statement
      have hstatement : (u.add row).statements = u.statements := by
        cases hrow <;> simp [Transaction.statements, Transaction.add, Write.statement?]
      refine ⟨by rw [hdatabase, hafter.1, hbefore.1], ?_, rfl⟩
      rw [hstatement, hafter.2, ← hbefore.2]
      simp [Transaction.statements, Transaction.withStatements, Write.statement?,
        Function.comp_def]
    · rw [h.1, hafter.1, hbefore.1]
  · exact hbefore.1

/-! ## Scripts from one to the next -/

theorem ends_applyOneByOne_tallied (scripts : List Script) (sequence : Nat) :
    Ends (runner.applyOneByOne direction sequence scripts) world
      (fun outcomes after => Tallied world after outcomes 0)
      (fun failure after => Tallied world after failure.1 0) := by
  induction scripts generalizing sequence world with
  | nil =>
    rw [ends_applyOneByOne_nil]
    exact (ends_callHookAlone_log hhooks _).mono (fun _ _ h => .pending h [])
      fun _ _ h => .pending h []
  | cons script rest ih =>
    have hfails : ∀ after : World, after.database.log = world.database.log →
        Tallied world after (.reached script .failed :: rest.map .pending) 0 := by
      intro after hlog
      refine .nothing hlog ?_ ?_
      · simp [Outcome.committed, Outcome.reached, Outcome.pending]
      · simp [Outcome.reached]
    rw [ends_applyOneByOne_cons, ends_applyAlone_eq]
    cases htext : script.text direction with
    | error failure => exact hfails world rfl
    | ok text =>
      refine (ends_apply_log hhooks sequence script text {}).mono (fun result now h => ?_)
        fun _ after h => hfails after h
      obtain ⟨hlog, hstatements, hcount⟩ := h
      have hcommit : (result.1.commit now.database).log =
          world.database.log ++ runner.rules.statements text := by
        rw [Transaction.log_commit, hlog, hstatements]
        rfl
      rw [hcount]
      exact (ih (sequence + 1)).mono (fun _ _ h => .cons script hcommit h)
        fun _ _ h => .cons script hcommit h

/-! ## Scripts together -/

/-- The outcomes of scripts whose statements have all been executed. -/
def executed (runner : Runner) (direction : Direction) (scripts : List Script) : List Outcome :=
  scripts.map fun script =>
    .reached script .running (runner.sectionStatements direction script).length

/-- How scripts are stopped that are one transaction: one of them fails and counts for nothing, or
all have been executed and the hook after them fails. -/
inductive HaltedTogether (runner : Runner) (direction : Direction) (scripts : List Script) :
    List Outcome × Failure → Prop where
  | script {failure : Failure} {script : Script} {rest : List Script} (done : List Script)
    (hscripts : scripts = done ++ script :: rest) (hfailure : failure.Blames script) :
    HaltedTogether runner direction scripts (runner.executed direction done ++
      .reached script .running :: rest.map .pending, failure)
  | after (name : String) (fault : HookFault) :
    HaltedTogether runner direction scripts
      (runner.executed direction scripts, .hook name .after none fault)

omit hhooks in
theorem HaltedTogether.cons {scripts : List Script} {failure : List Outcome × Failure}
    (h : runner.HaltedTogether direction scripts failure) (script : Script) :
    runner.HaltedTogether direction (script :: scripts) (.reached script .running
      (runner.sectionStatements direction script).length :: failure.1, failure.2) := by
  cases h with
  | @script failure failed rest done hscripts hfailure =>
    exact .script (script :: done) (congrArg (script :: ·) hscripts) hfailure
  | after name fault => exact .after name fault

theorem ends_applyTogether_log (scripts : List Script) (sequence : Nat) (tx : Transaction) :
    Ends (runner.applyTogether direction sequence scripts tx) world
      (fun result after => after.database.log = world.database.log ∧
        result.1.statements = tx.statements ++
          scripts.flatMap (runner.sectionStatements direction) ∧
        result.2 = runner.executed direction scripts)
      (fun failure after => after.database.log = world.database.log ∧
        runner.HaltedTogether direction scripts failure) := by
  induction scripts generalizing sequence tx world with
  | nil =>
    rw [ends_applyTogether_nil]
    refine ((ends_callHook_log hhooks _ none tx).and (ends_callHook_failure _ none tx)).mono
      (fun result after h => ?_) fun failure after h => ?_
    · exact ⟨h.1.1, by simpa using h.1.2, rfl⟩
    · obtain ⟨hlog, hook, fault, -, rfl⟩ := h
      exact ⟨hlog, .after hook.name fault⟩
  | cons script rest ih =>
    rw [ends_applyTogether_cons]
    cases htext : script.text direction with
    | error failure => exact ⟨rfl, .script [] rfl (Script.blames_of_text htext)⟩
    | ok text =>
      have hsection : runner.sectionStatements direction script = runner.rules.statements text := by
        rw [sectionStatements, htext]
      refine ((ends_apply_log hhooks sequence script text tx).and
        (ends_apply_blames sequence script text tx)).mono (fun result now h => ?_)
        fun failure after h => ⟨h.1, .script [] rfl h.2⟩
      obtain ⟨⟨hnow, hstatements, hcount⟩, -⟩ := h
      refine (ih (sequence + 1) result.1).mono (fun last after h => ?_) fun failure after h => ?_
      · obtain ⟨hafter, hlast, houtcomes⟩ := h
        refine ⟨hafter.trans hnow, ?_, ?_⟩
        · rw [hlast, hstatements, List.flatMap_cons, hsection, List.append_assoc]
        · rw [houtcomes, hcount, ← hsection]
          rfl
      · rw [hcount, ← hsection]
        exact ⟨h.1.trans hnow, h.2.cons script⟩

end Hooks

/-- The outcomes of scripts that are committed report as many statements as were executed. -/
theorem tallied_executed {after : World} (scripts : List Script) (hlog : after.database.log =
    world.database.log ++ scripts.flatMap (runner.sectionStatements direction)) :
    Tallied world after (Outcome.commitAll (runner.executed direction scripts)) 0 := by
  induction scripts generalizing world with
  | nil => exact .nothing (by simpa using hlog) rfl rfl
  | cons script rest ih =>
    have hrest := @ih { world with database := { world.database with
        log := world.database.log ++ runner.sectionStatements direction script } }
      (by simpa using hlog)
    exact hrest.cons script rfl

/-! ## Runs -/

/-- The report says more than was committed: the hook after scripts that are one transaction has
failed, and the last of them has statements. -/
def Overreports (runner : Runner) (plan : Plan) (result : Except Failure Unit) : Prop :=
  runner.mode = .perPlan ∧ (∃ name fault, result = .error (.hook name .after none fault)) ∧
    ∃ script ∈ plan.scripts.getLast?, runner.sectionStatements plan.direction script ≠ []

/-- What was added to the log and what is reported, in view of how the run has ended. -/
def Settles (runner : Runner) (plan : Plan) (before after : World) (outcomes : List Outcome)
    (result : Except Failure Unit) : Prop :=
  ∃ excess, Tallied before after outcomes excess ∧ (excess = 0 ↔ ¬ runner.Overreports plan result)

variable {plan : Plan}

theorem Settles.of_tallied {before after : World} {outcomes : List Outcome}
    {result : Except Failure Unit} (h : Tallied before after outcomes 0)
    (hresult : ¬ runner.Overreports plan result) :
    runner.Settles plan before after outcomes result :=
  ⟨0, h, iff_of_true rfl hresult⟩

theorem not_overreports_ok : ¬ runner.Overreports plan (.ok ()) := by
  rintro ⟨-, ⟨name, fault, h⟩, -⟩
  cases h

theorem not_overreports_perScript (hmode : runner.mode = .perScript)
    (result : Except Failure Unit) : ¬ runner.Overreports plan result := by
  rintro ⟨hplan, -⟩
  rw [hmode] at hplan
  cases hplan

/-- Neither a script nor the hook before all of them is the hook after them. -/
theorem not_overreports_blames {script : Script} {failure : Failure}
    (h : failure.Blames script) : ¬ runner.Overreports plan (.error failure) := by
  rintro ⟨-, ⟨name, fault, hresult⟩, -⟩
  cases hresult
  cases h

section Hooks

variable (hhooks : runner.hooks.IssueNone)
include hhooks

theorem ends_runPerScript_settles (hmode : runner.mode = .perScript) :
    Ends (runner.runPerScript plan) world
      (fun outcomes after => runner.Settles plan world after outcomes (.ok ()))
      (fun failure after => runner.Settles plan world after failure.1 (.error failure.2)) := by
  have hresult := @not_overreports_perScript runner plan hmode
  rw [ends_runPerScript_eq]
  refine (ends_callHookAlone_log hhooks _).mono (fun _ now hnow => ?_) fun failure after h => ?_
  · exact (ends_applyOneByOne_tallied hhooks plan.scripts 0).mono
      (fun _ _ h => .of_tallied (h.of_log hnow) (hresult _))
      fun _ _ h => .of_tallied (h.of_log hnow) (hresult _)
  · exact .of_tallied (.pending h plan.scripts) (hresult _)

omit hhooks in
/-- The outcomes of scripts that are given up: only the last one that was running has a number. -/
theorem tallied_abandonAll {after : World} (hlog : after.database.log = world.database.log)
    (done : List Script) (last : Script) (n : Nat) (rest : List Script) :
    Tallied world after (Outcome.abandonAll (runner.executed direction done ++
      .reached last .running n :: rest.map .pending)) n := by
  have habandoned := Outcome.abandonAll_reached done
    (fun script => (runner.sectionStatements direction script).length) last n rest
  refine .nothing hlog ?_ ?_
  · refine (congrArg Outcome.committed habandoned).trans ?_
    simp [Outcome.committed, Outcome.all, Outcome.reached]
  · refine (congrArg Outcome.total habandoned).trans ?_
    have hpending : ∀ scripts, Outcome.total (Outcome.all .pending scripts) = 0 :=
      Outcome.total_pending
    rw [Outcome.total_append, Outcome.total_cons, hpending, hpending]
    simp [Outcome.reached]

omit hhooks in
/-- When scripts are given up that are one transaction, none of them counts, unless all of them were
executed: then the last one keeps its number. -/
theorem HaltedTogether.settles {after : World} {failure : List Outcome × Failure}
    (hmode : runner.mode = .perPlan) (hlog : after.database.log = world.database.log)
    (h : runner.HaltedTogether plan.direction plan.scripts failure) :
    runner.Settles plan world after (Outcome.abandonAll failure.1) (.error failure.2) := by
  cases h with
  | @script failure failed rest done hscripts hfailure =>
    exact .of_tallied (tallied_abandonAll hlog done failed 0 rest)
      (not_overreports_blames hfailure)
  | after name fault =>
    rcases List.eq_nil_or_concat plan.scripts with hnil | ⟨done, last, hscripts⟩
    · rw [hnil]
      refine .of_tallied (.nothing hlog rfl rfl) ?_
      rintro ⟨-, -, script, hscript, -⟩
      simp [hnil] at hscript
    · rw [List.concat_eq_append] at hscripts
      have hlast : runner.executed plan.direction plan.scripts =
          runner.executed plan.direction done ++ .reached last .running
            (runner.sectionStatements plan.direction last).length :: [].map .pending := by
        rw [hscripts]
        simp [executed]
      rw [hlast]
      refine ⟨_, tallied_abandonAll hlog done last _ [], ?_⟩
      have hoverreports : runner.Overreports plan (.error (.hook name .after none fault)) ↔
          runner.sectionStatements plan.direction last ≠ [] := by
        simp [Overreports, hmode, hscripts]
      rw [hoverreports, Classical.not_not, List.length_eq_zero_iff]

theorem ends_runPerPlan_settles (hmode : runner.mode = .perPlan) :
    Ends (runner.runPerPlan plan) world
      (fun outcomes after => runner.Settles plan world after outcomes (.ok ()))
      (fun failure after => runner.Settles plan world after failure.1 (.error failure.2)) := by
  rw [ends_runPerPlan_eq]
  refine ((ends_callHook_log hhooks _ none {}).and (ends_callHook_failure _ none {})).mono
    (fun tx now h => ?_) fun failure after h => ?_
  · obtain ⟨⟨hnow, hopening⟩, -⟩ := h
    refine (ends_applyTogether_log hhooks plan.scripts 0 tx).mono (fun result after h => ?_)
      fun failure after h => h.2.settles hmode (h.1.trans hnow)
    obtain ⟨hafter, hstatements, houtcomes⟩ := h
    rw [houtcomes]
    refine .of_tallied (tallied_executed plan.scripts ?_) not_overreports_ok
    show (result.1.commit after.database).log = _
    rw [Transaction.log_commit, hstatements, hopening, hafter, hnow]
    rfl
  · obtain ⟨hlog, hook, fault, -, rfl⟩ := h
    have habandoned : Outcome.abandonAll (plan.scripts.map .pending) =
        plan.scripts.map .pending := Outcome.abandonAll_pending plan.scripts
    rw [habandoned]
    refine .of_tallied (.pending hlog plan.scripts) ?_
    rintro ⟨-, ⟨name, other, hresult⟩, -⟩
    cases hresult

/-- In either mode the scripts leave their statements in the log, as many as are reported. -/
theorem ends_runScripts_settles :
    Ends (runner.runScripts plan) world
      (fun outcomes after => runner.Settles plan world after outcomes (.ok ()))
      (fun failure after => runner.Settles plan world after failure.1 (.error failure.2)) := by
  have hstart : (runner.start plan world).database.log = world.database.log := by
    unfold start
    split
    · show (world.database.createTable runner.ledger.table).log = world.database.log
      rw [Database.createTable_eq]
    · rfl
  rw [ends_runScripts]
  split
  · refine .of_tallied (.pending rfl plan.scripts) ?_
    rintro ⟨-, ⟨name, fault, hresult⟩, -⟩
    cases hresult
  · have hsettles : ∀ after outcomes result,
        runner.Settles plan (runner.start plan world) after outcomes result →
        runner.Settles plan world after outcomes result :=
      fun after outcomes result ⟨excess, h, hexcess⟩ => ⟨excess, h.of_log hstart, hexcess⟩
    have hmode : Ends (runner.runMode plan) (runner.start plan world)
        (fun outcomes after =>
          runner.Settles plan (runner.start plan world) after outcomes (.ok ()))
        (fun failure after =>
          runner.Settles plan (runner.start plan world) after failure.1 (.error failure.2)) := by
      unfold runMode
      split
      · rename_i hmode
        exact ends_runPerScript_settles hhooks hmode
      · rename_i hmode
        exact ends_runPerPlan_settles hhooks hmode
    exact hmode.mono (fun outcomes after h => hsettles after outcomes _ h)
      fun failure after h => hsettles after failure.1 _ h

/-- Without an abort script nothing is added after the scripts. -/
theorem execute_settles (habort : runner.onAbort = none) :
    runner.Settles plan world ((runner.execute plan).run world).2
      ((runner.execute plan).run world).1.1.outcomes ((runner.execute plan).run world).1.2 := by
  by_cases hidle : plan.isEmpty = true
  · rw [execute_idle hidle]
    exact .of_tallied (.nothing rfl rfl rfl) not_overreports_ok
  · have hends := @ends_runScripts_settles runner world plan hhooks
    rw [execute_busy (by simpa using hidle), Procedure.run_bind]
    rcases hrun : (runner.runScripts plan).run.run world with ⟨⟨outcomes, failure⟩ | outcomes, now⟩
    · obtain ⟨excess, h, hexcess⟩ := hends.of_error hrun
      have habandoned : (runner.abort.run now).2 = now := by
        rw [run_abort, abortStatements, habort, List.append_nil]
      rw [run_conclude_error, habandoned, ite_self]
      exact ⟨excess, h, hexcess⟩
    · rw [run_conclude_ok]
      exact hends.of_ok hrun

end Hooks

/-- When the hooks issue no statements and there is no abort script, the log gains as many
statements as the report says of the committed scripts.  All that the report says adds up to them,
and no other script is said to have executed any, unless the hook after scripts that are one
transaction has failed and the last of them has statements. -/
theorem execute_counts_iff (runner : Runner) (plan : Plan) (world : World)
    (hhooks : runner.hooks.IssueNone) (habort : runner.onAbort = none) :
    let run := (runner.execute plan).run world
    let outcomes := run.1.1.outcomes
    ∃ added, run.2.database.log = world.database.log ++ added ∧
      Outcome.total (Outcome.committed outcomes) = added.length ∧
      (Outcome.total outcomes = added.length ↔ ¬ runner.Overreports plan run.1.2) ∧
      ((∀ outcome ∈ outcomes, outcome.state ≠ .committed → outcome.statements = 0) ↔
        ¬ runner.Overreports plan run.1.2) := by
  intro run outcomes
  obtain ⟨excess, ⟨⟨added, hlog, htotal⟩, hrest⟩, hexcess⟩ :=
    @execute_settles runner world plan hhooks habort
  have hall : Outcome.total outcomes = added.length + excess := by
    rw [Outcome.total_eq, htotal, hrest]
  refine ⟨added, hlog, htotal, ?_, ?_⟩
  · rw [hall, ← hexcess]
    omega
  · rw [← hexcess, ← hrest, Outcome.total_eq_zero]
    simp [Outcome.others, outcomes, run]

/-- A runner whose hook after the run rejects it. -/
private def vetoed (mode : TransactionMode) : Runner where
  ledger := ⟨"changes"⟩
  hooks := Hooks.register { layout := default } (.after .up)
    (.callback "veto" fun _ db => (.error (.rejected "no"), db))
  mode := mode

/-- A plan of two scripts, the first of them with two statements. -/
private def tables : Plan where
  direction := .up
  scripts := [.ofUp ⟨1⟩ "first" "create a;\nfill a;", .ofUp ⟨2⟩ "second" "create b;"]

private theorem issueNone_vetoed (mode : TransactionMode) : (vetoed mode).hooks.IssueNone := by
  intro slot hook hfind
  simp only [vetoed, Hooks.register] at hfind
  split at hfind
  · cases hfind
    exact Hook.issuesNone_callback fun _ _ => rfl
  · cases hfind

/-- Scripts with transactions of their own stay when the run is rejected, and so do their
numbers. -/
theorem execute_counts_iff_vetoed :
    let run := ((vetoed .perScript).execute tables).run {}
    (vetoed .perScript).hooks.IssueNone ∧ (vetoed .perScript).onAbort = none ∧
      run.2.database.log = ["create a", "fill a", "create b"] ∧
      Outcome.total run.1.1.outcomes = 3 := by
  intro run
  obtain ⟨added, hlog, -, hsum, -⟩ :=
    execute_counts_iff (vetoed .perScript) tables {} (issueNone_vetoed .perScript) rfl
  have hthree : run.2.database.log = ["create a", "fill a", "create b"] := by decide +kernel
  have hadded : added = ["create a", "fill a", "create b"] := hlog.symm.trans hthree
  have htotal : Outcome.total run.1.1.outcomes = added.length :=
    hsum.mpr (not_overreports_perScript rfl _)
  exact ⟨issueNone_vetoed .perScript, rfl, hthree, htotal.trans (congrArg List.length hadded)⟩

/-- Scripts that are one transaction are rolled back when the run is rejected, and still the report
says that a statement of the last one was executed. -/
theorem execute_counts_rolledBack :
    let run := ((vetoed .perPlan).execute tables).run {}
    (vetoed .perPlan).hooks.IssueNone ∧ (vetoed .perPlan).onAbort = none ∧
      run.2.database.log = [] ∧ Outcome.total run.1.1.outcomes = 1 ∧
      run.1.1.outcomes.map (fun outcome => (outcome.id, outcome.state, outcome.statements)) =
        [(⟨1⟩, .pending, 0), (⟨2⟩, .failed, 1)] := by
  refine ⟨issueNone_vetoed .perPlan, rfl, ?_, ?_, ?_⟩
  · decide +kernel
  · decide +kernel
  · decide +kernel

end Runner

end Migrations

import Migrations.Proofs.Hook.Writes
import Migrations.Proofs.Run.Ledger
import Migrations.Proofs.Run.Outcome

/-!
# What Runs Write

What a run commits, write by write.  The scripts that the report calls committed have left the
writes of the hooks before them, their statements, the writes of the hooks after them and their
rows, in this order; of the other scripts there is nothing.  Around them stand the writes of the
hooks around the run and the statements of the abort script.  What hooks do to the database past
their transactions is in nobody's hands, but nothing else happens to tables and log.

## Main statements

- `Runner.Wrote.content`: what is in the database when hooks write through their transactions.
- `Runner.ends_apply_writes`: what a script adds to a transaction.
- `Runner.ends_runScripts_leaves`: what the scripts of a plan leave in either mode.
- `Runner.execute_report`: what a report says, and what is in the database then.
-/

namespace Migrations

open Attempt

namespace Runner

variable {runner : Runner} {direction : Direction} {world : World}

/-! ## Writes -/

/-- The hook at the slot can add the writes to a transaction, when it is called for the change. -/
def HookWrites (runner : Runner) (slot : HookSlot) (change? : Option (Change × Nat))
    (writes : List Write) : Prop :=
  ∃ tx world result after, (runner.callHook slot change? tx).run.run world = (.ok result, after) ∧
    result.writes = tx.writes ++ writes

/-- The writes of a script at a position of the run. -/
inductive ScriptWrites (runner : Runner) (direction : Direction) (sequence : Nat)
    (script : Script) : List Write → Prop where
  | mk {text : String} {before after : List Write} {row : Write}
    (htext : script.text direction = .ok text)
    (hbefore : runner.HookWrites (.beforeEach direction) (some (script.change, sequence)) before)
    (hafter : runner.HookWrites (.afterEach direction) (some (script.change, sequence)) after)
    (hrow : runner.RowWrite script direction row) :
    ScriptWrites runner direction sequence script
      (before ++ (runner.rules.statements text).map .statement ++ after ++ [row])

/-- The writes of scripts from a position of the run on. -/
inductive RunWrites (runner : Runner) (direction : Direction) :
    Nat → List Script → List Write → Prop where
  | nil (sequence : Nat) : RunWrites runner direction sequence [] []
  | cons {sequence : Nat} {script : Script} {rest : List Script} {writes more : List Write}
    (hfirst : runner.ScriptWrites direction sequence script writes)
    (hrest : RunWrites runner direction (sequence + 1) rest more) :
    RunWrites runner direction sequence (script :: rest) (writes ++ more)

/-- Between two worlds the writes were committed, and tables and log have not changed otherwise,
unless hooks have changed them past their transactions. -/
inductive Wrote (runner : Runner) : World → World → List Write → Prop where
  | nothing {before after : World} (h : after.database.content = before.database.content) :
    Wrote runner before after []
  | hook {before after : World} (slot : HookSlot) (change? : Option (Change × Nat))
    (tx : Transaction) (h : ((runner.callHook slot change? tx).run.run before).2 = after) :
    Wrote runner before after []
  | commit (now : World) (tx : Transaction) :
    Wrote runner now { now with database := tx.commit now.database } tx.writes
  | append {a b c : World} {writes more : List Write} (hab : Wrote runner a b writes)
    (hbc : Wrote runner b c more) : Wrote runner a c (writes ++ more)

/-- Nothing is written on either side of a time in which nothing was written. -/
theorem Wrote.trans {a b c : World} (hab : runner.Wrote a b []) (hbc : runner.Wrote b c []) :
    runner.Wrote a c [] := hab.append hbc

/-- The writes of a transaction that was filled while nothing was written. -/
theorem Wrote.committed {before now : World} (h : runner.Wrote before now [])
    (tx : Transaction) :
    runner.Wrote before { now with database := tx.commit now.database } tx.writes :=
  h.append (.commit now tx)

theorem ends_callHook_content (hhooks : runner.hooks.WriteThrough) (slot : HookSlot)
    (change? : Option (Change × Nat)) (tx : Transaction) (world : World) :
    Ends (runner.callHook slot change? tx) world
      (fun _ after => after.database.content = world.database.content)
      (fun _ after => after.database.content = world.database.content) := by
  rw [ends_callHook_eq]
  cases hfind : runner.hooks.find? slot with
  | none => rfl
  | some hook => exact hhooks slot hook hfind _ tx world

/-- When hooks write through their transactions, what is there is what the writes make of what was
there before. -/
theorem Wrote.content {before after : World} {writes : List Write}
    (hhooks : runner.hooks.WriteThrough) (h : runner.Wrote before after writes) :
    after.database.content = ((Transaction.mk writes).commit before.database).content := by
  induction h with
  | nothing h => exact h
  | hook slot change? tx h =>
    rw [← h]
    exact (ends_callHook_content hhooks slot change? tx _).always
  | commit now tx => rfl
  | append _ _ ihab ihbc =>
    -- the second writes come to the same in the database that the first ones have left
    rw [ihbc, Transaction.content_commit ihab]
    simp only [Transaction.commit, List.foldl_append]

/-! ## One script -/

section Hooks

variable (hhooks : runner.hooks.KeepWrites)

include hhooks

theorem ends_callHook_writes (slot : HookSlot) (change? : Option (Change × Nat))
    (tx : Transaction) :
    Ends (runner.callHook slot change? tx) world
      (fun result after => runner.Wrote world after [] ∧
        ∃ writes, runner.HookWrites slot change? writes ∧ result.writes = tx.writes ++ writes)
      (fun _ after => runner.Wrote world after []) := by
  have hadds : Ends (runner.callHook slot change? tx) world
      (fun result _ => tx.writes <+: result.writes) (fun _ _ => True) := by
    rw [ends_callHook_eq]
    cases hfind : runner.hooks.find? slot with
    | none => exact List.prefix_rfl
    | some hook => exact hhooks slot hook hfind _ tx world
  -- the call itself is the proof that the hook can write this
  refine ((ends_run_self _ world).and hadds).mono (fun result after hend => ?_)
    fun _ after hend => .hook slot change? tx (congrArg Prod.snd hend.1)
  obtain ⟨hrun, writes, hwrites⟩ := hend
  exact ⟨.hook slot change? tx (congrArg Prod.snd hrun), writes,
    ⟨tx, world, result, after, hrun, hwrites.symm⟩, hwrites.symm⟩

theorem ends_apply_writes (sequence : Nat) {script : Script} {text : String}
    (htext : script.text direction = .ok text) (tx : Transaction) :
    Ends (runner.apply direction sequence script text tx) world
      (fun result after => runner.Wrote world after [] ∧
        ∃ writes, runner.ScriptWrites direction sequence script writes ∧
          result.1.writes = tx.writes ++ writes)
      (fun _ after => runner.Wrote world after []) := by
  rw [ends_apply_eq]
  refine (ends_callHook_writes hhooks _ _ tx).mono (fun t now ht => ?_) fun _ _ h => h
  obtain ⟨hnow, before, hbefore, ht⟩ := ht
  split
  · refine (ends_callHook_writes hhooks _ _ _).mono (fun u then' hu => ?_)
      fun _ _ h => hnow.trans h
    obtain ⟨hthen, after, hafter, hu⟩ := hu
    have hkept : ∀ {last : World}, last.database = then'.database →
        runner.Wrote world last [] := fun hlast =>
      (hnow.trans hthen).trans (.nothing (congrArg Database.content hlast))
    refine (ends_writeLedger_row script u).mono (fun result last hlast => ?_)
      fun _ _ h => hkept h.1
    obtain ⟨hlast, row, hrow, rfl⟩ := hlast
    refine ⟨hkept hlast, _, .mk htext hbefore hafter hrow, ?_⟩
    simp only [Transaction.add, hu, Transaction.withStatements, ht, List.append_assoc]
  · exact hnow

theorem ends_callHookAlone_writes (slot : HookSlot) :
    Ends (runner.callHookAlone slot) world
      (fun _ after => ∃ writes, (writes = [] ∨ runner.HookWrites slot none writes) ∧
        runner.Wrote world after writes)
      (fun _ after => runner.Wrote world after []) := by
  rw [ends_callHookAlone_eq]
  split
  · refine (ends_callHook_writes hhooks slot none {}).mono (fun tx now h => ?_) fun _ _ h => h
    obtain ⟨hnow, writes, hhook, hwrites⟩ := h
    obtain rfl : tx.writes = writes := hwrites
    exact ⟨tx.writes, .inr hhook, hnow.committed tx⟩
  · exact ⟨[], .inl rfl, .nothing rfl⟩

/-! ## Runs -/

/-- The scripts up to one that fails have left their writes, and after all of them come the writes
of the hook after the run. -/
theorem ends_applyOneByOne_writes (scripts : List Script) (sequence : Nat) :
    Ends (runner.applyOneByOne direction sequence scripts) world
      (fun outcomes after => ∃ writes closing,
        outcomes.map Outcome.mark = Script.marks true scripts ∧
        runner.RunWrites direction sequence scripts writes ∧
        (closing = [] ∨ runner.HookWrites (.after direction) none closing) ∧
        runner.Wrote world after (writes ++ closing))
      (fun failure after => ∃ done rest writes, scripts = done ++ rest ∧
        failure.1.map Outcome.mark = Script.marks true done ++ Script.marks false rest ∧
        runner.RunWrites direction sequence done writes ∧ runner.Wrote world after writes) := by
  induction scripts generalizing sequence world with
  | nil =>
    rw [ends_applyOneByOne_nil]
    refine (ends_callHookAlone_writes hhooks _).mono (fun _ after h => ?_) fun _ after h => ?_
    · obtain ⟨closing, hclosing, hwrote⟩ := h
      exact ⟨[], closing, rfl, .nil sequence, hclosing, hwrote⟩
    · exact ⟨[], [], [], rfl, rfl, .nil sequence, h⟩
  | cons script rest ih =>
    rw [ends_applyOneByOne_cons, ends_applyAlone_eq]
    have hfails : ∀ (failure : Failure) {after : World}, runner.Wrote world after [] →
        ∃ done others writes, script :: rest = done ++ others ∧
          (Outcome.reached script .failed :: rest.map .pending).map Outcome.mark =
            Script.marks true done ++ Script.marks false others ∧
          runner.RunWrites direction sequence done writes ∧ runner.Wrote world after writes := by
      intro failure after hwrote
      exact ⟨[], script :: rest, [], rfl, congrArg (_ :: ·) (Outcome.marks_pending rest),
        .nil sequence, hwrote⟩
    cases htext : script.text direction with
    | error failure => exact hfails failure (.nothing rfl)
    | ok text =>
      refine (ends_apply_writes hhooks sequence htext {}).mono (fun result now hnow => ?_)
        fun failure _ h => hfails failure h
      obtain ⟨hnow, first, hfirst, hwrites⟩ := hnow
      obtain rfl : result.1.writes = first := hwrites
      have hcommit := hnow.committed result.1
      -- what the first script has written stands before what the others write
      refine (ih (sequence + 1)).mono (fun outcomes after h => ?_) fun failure after h => ?_
      · obtain ⟨writes, closing, hmarks, hrun, hclosing, hwrote⟩ := h
        refine ⟨_, closing, congrArg (_ :: ·) hmarks, .cons hfirst hrun, hclosing, ?_⟩
        rw [List.append_assoc]
        exact hcommit.append hwrote
      · obtain ⟨done, others, writes, rfl, hmarks, hrun, hwrote⟩ := h
        exact ⟨script :: done, others, _, rfl, congrArg (_ :: ·) hmarks, .cons hfirst hrun,
          hcommit.append hwrote⟩

/-- In one transaction all scripts collect their writes, and the hook after the run adds its own. -/
theorem ends_applyTogether_writes (scripts : List Script) (sequence : Nat) (tx : Transaction) :
    Ends (runner.applyTogether direction sequence scripts tx) world
      (fun result after => runner.Wrote world after [] ∧
        ∃ writes closing, runner.RunWrites direction sequence scripts writes ∧
          runner.HookWrites (.after direction) none closing ∧
          result.1.writes = tx.writes ++ (writes ++ closing))
      (fun _ after => runner.Wrote world after []) := by
  induction scripts generalizing sequence tx world with
  | nil =>
    rw [ends_applyTogether_nil]
    refine (ends_callHook_writes hhooks _ none tx).mono (fun result after h => ?_) fun _ _ h => h
    obtain ⟨hafter, closing, hclosing, hwrites⟩ := h
    exact ⟨hafter, [], closing, .nil sequence, hclosing, hwrites⟩
  | cons script rest ih =>
    rw [ends_applyTogether_cons]
    cases htext : script.text direction with
    | error failure => exact .nothing rfl
    | ok text =>
      refine (ends_apply_writes hhooks sequence htext tx).mono (fun result now hnow => ?_)
        fun _ _ h => h
      obtain ⟨hnow, first, hfirst, hwrites⟩ := hnow
      refine (ih (sequence + 1) result.1).mono (fun last after h => ?_) fun _ _ h => ?_
      · obtain ⟨hafter, writes, closing, hrun, hclosing, hlast⟩ := h
        refine ⟨hnow.trans hafter, _, closing, .cons hfirst hrun, hclosing, ?_⟩
        rw [hlast, hwrites]
        simp only [List.append_assoc]
      · exact hnow.trans h

/-- What a run leaves that committed some scripts of its plan and not the others: before the writes
of the scripts stand those of the hook before the run, and after them come the closing ones. -/
structure Written (runner : Runner) (plan : Plan) (before : World) (done rest : List Script)
    (opening writes closing : List Write) (outcomes : List Outcome) (after : World) : Prop where
  scripts : plan.scripts = done ++ rest
  marks : outcomes.map Outcome.mark = Script.marks true done ++ Script.marks false rest
  hook : opening = [] ∨ runner.HookWrites (.before plan.direction) none opening
  run : runner.RunWrites plan.direction 0 done writes
  wrote : runner.Wrote before after (opening ++ writes ++ closing)

/-- With the closing writes, that is what a run leaves. -/
def Leaves (runner : Runner) (plan : Plan) (before : World) (closing : List Write)
    (outcomes : List Outcome) (after : World) : Prop :=
  ∃ done rest opening writes,
    runner.Written plan before done rest opening writes closing outcomes after

omit hhooks in
/-- A run that was stopped at its beginning leaves nothing. -/
theorem Leaves.nothing {plan : Plan} {before after : World} {outcomes : List Outcome}
    (houtcomes : outcomes.map Outcome.mark = Script.marks false plan.scripts)
    (h : runner.Wrote before after []) : runner.Leaves plan before [] outcomes after :=
  ⟨[], plan.scripts, [], [], rfl, houtcomes, .inl rfl, .nil 0, h⟩

omit hhooks in
/-- What is written later comes to the closing writes. -/
theorem Leaves.append {plan : Plan} {before now after : World} {outcomes : List Outcome}
    {closing more : List Write} (h : runner.Leaves plan before closing outcomes now)
    (hmore : runner.Wrote now after more) :
    runner.Leaves plan before (closing ++ more) outcomes after := by
  obtain ⟨done, rest, opening, writes, hwritten⟩ := h
  refine ⟨done, rest, opening, writes, { hwritten with wrote := ?_ }⟩
  rw [← List.append_assoc]
  exact hwritten.wrote.append hmore

theorem ends_runPerScript_leaves (plan : Plan) :
    Ends (runner.runPerScript plan) world
      (fun outcomes after => ∃ closing,
        (closing = [] ∨ runner.HookWrites (.after plan.direction) none closing) ∧
        runner.Leaves plan world closing outcomes after)
      (fun failure after => runner.Leaves plan world [] failure.1 after) := by
  rw [ends_runPerScript_eq]
  refine (ends_callHookAlone_writes hhooks _).mono (fun _ now h => ?_) fun _ after h => ?_
  · obtain ⟨opening, hopening, hwrote⟩ := h
    refine (ends_applyOneByOne_writes hhooks plan.scripts 0).mono (fun outcomes after h => ?_)
      fun failure after h => ?_
    · obtain ⟨writes, closing, hmarks, hrun, hclosing, hrest⟩ := h
      refine ⟨closing, hclosing, plan.scripts, [], opening, writes, (List.append_nil _).symm,
        by simpa [Script.marks] using hmarks, hopening, hrun, ?_⟩
      rw [List.append_assoc]
      exact hwrote.append hrest
    · obtain ⟨done, rest, writes, hscripts, hmarks, hrun, hrest⟩ := h
      refine ⟨done, rest, opening, writes, hscripts, hmarks, hopening, hrun, ?_⟩
      rw [List.append_nil]
      exact hwrote.append hrest
  · exact .nothing (Outcome.marks_pending _) h

theorem ends_runPerPlan_leaves (plan : Plan) :
    Ends (runner.runPerPlan plan) world
      (fun outcomes after => ∃ closing,
        (closing = [] ∨ runner.HookWrites (.after plan.direction) none closing) ∧
        runner.Leaves plan world closing outcomes after)
      (fun failure after => runner.Leaves plan world [] failure.1 after) := by
  rw [ends_runPerPlan_eq]
  refine (ends_callHook_writes hhooks _ none {}).mono (fun tx now h => ?_) fun _ after h => ?_
  · obtain ⟨hnow, opening, hopening, htx⟩ := h
    obtain rfl : tx.writes = opening := htx
    refine ((ends_applyTogether_halt plan.scripts 0 tx).and
      (ends_applyTogether_writes hhooks plan.scripts 0 tx)).mono (fun result after h => ?_)
      fun failure after h => ?_
    · obtain ⟨houtcomes, hafter, writes, closing, hrun, hclosing, hwrites⟩ := h
      have hmarks : (Outcome.commitAll result.2).map Outcome.mark =
          Script.marks true plan.scripts := by
        rw [← Outcome.map_mark_uncounted, Outcome.map_uncounted_commitAll, houtcomes,
          Outcome.commitAll_running, Outcome.map_mark_all]
        rfl
      have hcommit := (hnow.trans hafter).committed result.1
      rw [hwrites, ← List.append_assoc] at hcommit
      exact ⟨closing, .inr hclosing, plan.scripts, [], tx.writes, writes,
        (List.append_nil _).symm, by simpa [Script.marks] using hmarks, .inr hopening, hrun,
        hcommit⟩
    -- the transaction is given up, and with it what was collected
    · exact .nothing (Outcome.marks_abandonAll h.1.marks) (hnow.trans h.2)
  · exact .nothing (Outcome.marks_abandonAll (Outcome.marks_pending _)) h

/-- In either mode the scripts run on top of what is there, or of that and the new table of the
ledger. -/
theorem ends_runScripts_leaves (plan : Plan) :
    Ends (runner.runScripts plan) world
      (fun outcomes after => ∃ closing,
        (closing = [] ∨ runner.HookWrites (.after plan.direction) none closing) ∧
        runner.Leaves plan (runner.start plan world) closing outcomes after)
      (fun failure after => ∃ before, (before = world ∨ before = runner.start plan world) ∧
        runner.Leaves plan before [] failure.1 after) := by
  rw [ends_runScripts]
  split
  · exact ⟨world, .inl rfl, .nothing (Outcome.marks_pending _) (.nothing rfl)⟩
  · unfold runMode
    split
    · exact (ends_runPerScript_leaves hhooks plan).mono (fun _ _ h => h)
        fun _ _ h => ⟨_, .inr rfl, h⟩
    · exact (ends_runPerPlan_leaves hhooks plan).mono (fun _ _ h => h)
        fun _ _ h => ⟨_, .inr rfl, h⟩

end Hooks

/-! ## Reports -/

/-- The writes after those of the scripts: the ones of the hook after a run that succeeds, and the
statements of the abort script after a run upwards that fails. -/
def Closing (runner : Runner) (plan : Plan) (closing : List Write) : Except Failure Unit → Prop
  | .ok () => closing = [] ∨ runner.HookWrites (.after plan.direction) none closing
  | .error _ => ∃ db, closing =
      (if plan.direction.isUp then runner.abortStatements db else []).map .statement

theorem wrote_abort (now : World) :
    runner.Wrote now (runner.abort.run now).2
      ((runner.abortStatements now.database).map .statement) := by
  have hcommit := @Wrote.commit runner now
    (Transaction.withStatements {} (runner.abortStatements now.database))
  rw [Transaction.commit_withStatements] at hcommit
  rw [run_abort]
  exact hcommit

/-- A run that failed leaves the statements of the abort script upwards, and else nothing more. -/
theorem wrote_conclude (plan : Plan) (now : World) :
    runner.Wrote now (if plan.direction.isUp then (runner.abort.run now).2 else now)
      ((if plan.direction.isUp then runner.abortStatements now.database else []).map
        .statement) := by
  by_cases hup : plan.direction.isUp = true
  · rw [if_pos hup, if_pos hup]
    exact wrote_abort now
  · rw [if_neg hup, if_neg hup]
    exact .nothing rfl

theorem execute_leaves (plan : Plan) (hhooks : runner.hooks.KeepWrites) :
    ∃ before closing, (before = world ∨ before = runner.start plan world) ∧
      runner.Closing plan closing ((runner.execute plan).run world).1.2 ∧
      runner.Leaves plan before closing ((runner.execute plan).run world).1.1.outcomes
        ((runner.execute plan).run world).2 := by
  by_cases hidle : plan.isEmpty = true
  · have hnone : plan.scripts = [] := List.isEmpty_iff.mp hidle
    rw [execute_idle hidle]
    refine ⟨world, [], .inl rfl, .inl rfl, .nothing ?_ (.nothing rfl)⟩
    rw [hnone]
    rfl
  · have hends : Ends (runner.runScripts plan) world _ _ := ends_runScripts_leaves hhooks plan
    rw [execute_busy (by simpa using hidle), Procedure.run_bind]
    rcases hrun : (runner.runScripts plan).run.run world with ⟨⟨outcomes, failure⟩ | outcomes, now⟩
    · obtain ⟨before, hbefore, hleaves⟩ := hends.of_error hrun
      rw [run_conclude_error]
      exact ⟨before, _, hbefore, ⟨now.database, rfl⟩, hleaves.append (wrote_conclude plan now)⟩
    · obtain ⟨closing, hclosing, hleaves⟩ := hends.of_ok hrun
      rw [run_conclude_ok]
      exact ⟨_, closing, .inr rfl, hclosing, hleaves⟩

/-- What every report says, whatever the hooks and the database do.  The outcomes are those of the
plan's scripts in their order, and none of them is running any more.  All scripts of a run that
succeeds are committed; in a run that fails come the scripts that it was done with, at most one
script that failed, and the ones that it did not come to.  The scripts that the report calls
committed are the ones whose writes were committed, and no other writes were but those of the hooks
and of the abort script.  When the hooks write through their transactions, this is what is in the
database then, and hooks that leave the ledger alone leave it to these scripts. -/
theorem execute_report (runner : Runner) (plan : Plan) (world : World) :
    let run := (runner.execute plan).run world
    let report := run.1.1
    (∀ outcome ∈ report.outcomes, outcome.state ≠ .running) ∧
    (match run.1.2 with
      | .ok () => report.outcomes.map Outcome.uncounted = Outcome.all .committed plan.scripts
      | .error _ => ∃ done failed? rest, plan.scripts = done ++ failed?.toList ++ rest ∧
          report.outcomes.map Outcome.uncounted =
            Outcome.stopped (settled runner.mode) done failed? rest) ∧
    (runner.hooks.KeepWrites → ∃ before done rest opening writes closing,
      (before = world ∨ before = runner.start plan world) ∧
      runner.Closing plan closing run.1.2 ∧ report.committed = done.map Script.id ∧
      runner.Written plan before done rest opening writes closing report.outcomes run.2 ∧
      (runner.hooks.WriteThrough → run.2.database.content =
        ((Transaction.mk (opening ++ writes ++ closing)).commit before.database).content)) ∧
    (runner.hooks.KeepLedger runner.ledger.table →
      plan.direction.Moves report.committed (runner.ids world) (runner.ids run.2)) := by
  intro run report
  have hreported : runner.Reported plan report.outcomes run.1.2 :=
    execute_reported runner plan world
  refine ⟨hreported.not_running, ?_, fun hhooks => ?_, fun hhooks => ?_⟩
  · cases hresult : run.1.2 with
    | ok _ =>
      rw [hresult] at hreported
      exact hreported
    | error failure =>
      rw [hresult] at hreported
      obtain ⟨done, failed?, rest, hstop, houtcomes⟩ := hreported
      exact ⟨done, failed?, rest, hstop.scripts, houtcomes⟩
  · obtain ⟨before, closing, hbefore, hclosing, done, rest, opening, writes, hwritten⟩ :=
      @execute_leaves runner world plan hhooks
    exact ⟨before, done, rest, opening, writes, closing, hbefore, hclosing,
      Report.committed_of_marks hwritten.marks, hwritten, hwritten.wrote.content⟩
  · exact (run_execute_moves plan hhooks).2.2

/-- A runner with neither hooks nor an abort script. -/
private def bare : Runner where
  ledger := ⟨"changes"⟩
  hooks := { layout := default }

/-- A plan whose second script fails in `guarded`. -/
private def twins : Plan where
  direction := .up
  scripts := [.ofUp ⟨1⟩ "first" "create a;", .ofUp ⟨2⟩ "second" "drop a;"]

/-- A world in which nothing can be dropped. -/
private def guarded : World where
  database := { failures := ["drop"] }

/-- The report calls the first script committed, and its writes are what is there. -/
theorem execute_report_twins :
    let run := (bare.execute twins).run guarded
    run.1.1.committed = [⟨1⟩] ∧
      Direction.up.Moves [⟨1⟩] (bare.ids guarded) (bare.ids run.2) ∧
      ∃ before done rest opening writes closing, done.map Script.id = [⟨1⟩] ∧
        bare.Written twins before done rest opening writes closing run.1.1.outcomes run.2 ∧
        run.2.database.content =
          ((Transaction.mk (opening ++ writes ++ closing)).commit before.database).content := by
  intro run
  -- without hooks there is none that could do anything
  have hnone : ∀ {P : Hook → Prop} slot hook, bare.hooks.find? slot = some hook → P hook := by
    intro P slot hook hfind
    cases hfind
  have hcommitted : run.1.1.committed = [⟨1⟩] := by decide +kernel
  obtain ⟨-, -, hwritten, hmoves⟩ := execute_report bare twins guarded
  have hmoved := hmoves hnone
  obtain ⟨before, done, rest, opening, writes, closing, -, -, hids, hdone, hcontent⟩ :=
    hwritten hnone
  refine ⟨hcommitted, ?_, before, done, rest, opening, writes, closing, ?_, hdone,
    hcontent hnone⟩
  · rw [← hcommitted]
    exact hmoved
  · rw [← hcommitted]
    exact hids.symm

end Runner

end Migrations

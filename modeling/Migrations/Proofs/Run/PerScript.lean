import Migrations.Proofs.Run.Execution
import Migrations.Proofs.Run.Script

/-!
# Runs Script by Script

What a run leaves that executes every script in a transaction of its own, wherever it stops.  The
scripts that are committed are the first ones of the plan; their rows and their statements are in
the database, and of the script that stopped the run there is nothing.

## Main statements

- `Runner.ends_applyOneByOne`: the loop over the scripts commits a first part of them.
- `Runner.execute_perScript`: what the whole run leaves, the abort script included.
-/

namespace Migrations

open Attempt

namespace Runner

variable {runner : Runner} {plan : Plan} {world : World}

/-! ## Hooks around the run -/

/-- A hook around the run leaves its statements, and nothing when it fails. -/
theorem ends_callHookAlone (hhooks : runner.hooks.OnlyExecute) (slot : HookSlot)
    (direction : Direction) {now : World} (hsame : world.SameCircumstances now) :
    Ends (runner.callHookAlone slot) now
      (fun _ after => runner.Effect direction [] (runner.hookStatements slot none world) now after)
      (fun _ after => runner.Effect direction [] [] now after ∧
        runner.hookStatements slot none world = []) := by
  rw [ends_callHookAlone_eq]
  split
  · refine (ends_callHook hhooks slot none {} hsame).mono (fun tx after h => ?_)
      fun _ after h => ?_
    · obtain ⟨rfl, rfl⟩ := h
      exact Effect.add_statements direction (.refl after) rfl {} _
    · obtain ⟨rfl, hnone⟩ := h
      exact ⟨Effect.nothing direction (.refl after) rfl, hnone⟩
  -- without a hook no transaction is begun
  · rename_i hhas
    have hfind : runner.hooks.find? slot = none := by simpa [Hooks.has] using hhas
    have hnone : runner.hookStatements slot none world = [] := by
      simp [hookStatements, hookOutcome, hfind]
    rw [hnone]
    exact Effect.nothing direction (.refl now) rfl

/-! ## The scripts -/

/-- The statements of scripts that stand from a position of the run on. -/
def runStatements (runner : Runner) (direction : Direction) (world : World) (first : Nat)
    (scripts : List Script) : List String :=
  (scripts.zipIdx first).flatMap (runner.scriptStatements direction world)

theorem runStatements_cons (direction : Direction) (world : World) (first : Nat) (script : Script)
    (rest : List Script) :
    runner.runStatements direction world first (script :: rest) =
      runner.scriptStatements direction world (script, first) ++
        runner.runStatements direction world (first + 1) rest := by
  simp [runStatements, List.zipIdx_cons]

/-- The scripts up to one that fails are committed; when none fails, the hook after the run comes
to its statements. -/
theorem ends_applyOneByOne (hhooks : runner.hooks.OnlyExecute) (direction : Direction)
    (scripts : List Script) (sequence : Nat) {now : World}
    (hsame : world.SameCircumstances now) :
    Ends (runner.applyOneByOne direction sequence scripts) now
      (fun outcomes after =>
        outcomes.map Outcome.mark = Script.marks true scripts ∧
        runner.Effect direction scripts (runner.runStatements direction world sequence scripts ++
          runner.hookStatements (.after direction) none world) now after)
      (fun failure after => ∃ done rest, scripts = done ++ rest ∧
        failure.1.map Outcome.mark = Script.marks true done ++ Script.marks false rest ∧
        runner.Effect direction done
          (runner.runStatements direction world sequence done) now after) := by
  -- the world changes with every script, but its circumstances are the ones of the beginning
  induction scripts generalizing sequence now with
  | nil =>
    rw [ends_applyOneByOne_nil]
    refine (ends_callHookAlone hhooks (.after direction) direction hsame).mono
      (fun _ after h => ⟨rfl, h⟩) fun failure after h => ?_
    exact ⟨[], [], rfl, rfl, h.1⟩
  | cons script rest ih =>
    rw [ends_applyOneByOne_cons]
    refine (ends_applyAlone hhooks direction sequence script hsame).mono
      (fun n after h => ?_) fun failure after h => ?_
    · refine (ih (sequence + 1) (hsame.trans h.circumstances)).mono
        (fun outcomes last h' => ?_) fun failure last h' => ?_
      -- what the first script left and what the rest left adds up
      · obtain ⟨hmarks, heffect⟩ := h'
        refine ⟨congrArg (_ :: ·) hmarks, ?_⟩
        rw [runStatements_cons, List.append_assoc]
        exact h.append heffect
      · obtain ⟨done, rest', rfl, hmarks, heffect⟩ := h'
        refine ⟨script :: done, rest', rfl, congrArg (_ :: ·) hmarks, ?_⟩
        rw [runStatements_cons]
        exact h.append heffect
    -- the first script failed, and the rest is not begun
    · exact ⟨[], script :: rest, rfl, congrArg (_ :: ·) (Outcome.marks_pending rest), h⟩

/-- The abort script leaves its statements. -/
theorem effect_abort (direction : Direction) {now : World} (hsame : world.SameCircumstances now) :
    runner.Effect direction [] (runner.abortStatements world.database) now
      (runner.abort.run now).2 := by
  rw [run_abort, abortStatements_congr hsame.failures]
  exact ⟨⟨rfl, rfl, rfl, rfl, rfl, rfl⟩, Recorded.nil direction _, fun _ _ => rfl, rfl⟩

/-! ## The run -/

/-- What is left in a world of a run that committed some scripts of its plan and not the others,
with the statements that come after those of the scripts. -/
structure Progress (runner : Runner) (plan : Plan) (world : World) (done rest : List Script)
    (closing : List String) (outcomes : List Outcome) (after : World) : Prop where
  scripts : plan.scripts = done ++ rest
  outcomes : outcomes.map Outcome.mark = Script.marks true done ++ Script.marks false rest
  effect : runner.Effect plan.direction done
    (runner.hookStatements (.before plan.direction) none world ++
      runner.runStatements plan.direction world 0 done ++ closing)
    (runner.start plan world) after

theorem sameCircumstances_start (runner : Runner) (plan : Plan) (world : World) :
    world.SameCircumstances (runner.start plan world) := by
  unfold start
  split
  · rw [Database.createTable_eq]
    exact ⟨rfl, rfl, rfl, rfl, rfl, rfl⟩
  · exact .refl world

/-- The scripts of a run up to one that fails are committed. -/
theorem ends_runPerScript (hhooks : runner.hooks.OnlyExecute) :
    Ends (runner.runPerScript plan) (runner.start plan world)
      (fun outcomes after => runner.Progress plan world plan.scripts []
        (runner.hookStatements (.after plan.direction) none world) outcomes after)
      (fun failure after => ∃ done rest,
        runner.Progress plan world done rest [] failure.1 after) := by
  have hstart := sameCircumstances_start runner plan world
  rw [ends_runPerScript_eq]
  refine (ends_callHookAlone hhooks (.before plan.direction) plan.direction hstart).mono
    (fun _ now hbefore => ?_) fun failure after h => ?_
  · refine (ends_applyOneByOne hhooks plan.direction plan.scripts 0
      (hstart.trans hbefore.circumstances)).mono (fun outcomes after h => ?_)
      fun failure after h => ?_
    · refine ⟨(List.append_nil _).symm, by simpa [Script.marks] using h.1, ?_⟩
      rw [List.append_assoc]
      exact hbefore.append h.2
    · obtain ⟨done, rest, hscripts, hmarks, heffect⟩ := h
      refine ⟨done, rest, hscripts, hmarks, ?_⟩
      rw [List.append_nil]
      exact hbefore.append heffect
  -- the hook before the run failed, and no script is begun
  · refine ⟨[], plan.scripts, rfl, Outcome.marks_pending _, ?_⟩
    simpa [h.2, runStatements] using h.1

/-- The statements that a run leaves after those of its scripts: the ones of the hook after it, or
else the ones of the abort script upwards. -/
def closingStatements (runner : Runner) (plan : Plan) (world : World) :
    Except Failure Unit → List String
  | .ok () => runner.hookStatements (.after plan.direction) none world
  | .error _ => if plan.direction.isUp then runner.abortStatements world.database else []

/-- What a run script by script leaves, given its report: the scripts that the report calls
committed are the first ones of the plan and all of them when the run succeeds, the ledger has their
rows, and the log has the statements of the run. -/
structure PerScript (runner : Runner) (plan : Plan) (world : World) (report : Report)
    (result : Except Failure Unit) (after : World) : Prop extends
    runner.Progress plan world (plan.scripts.take report.committed.length)
      (plan.scripts.drop report.committed.length) (runner.closingStatements plan world result)
      report.outcomes after where
  complete : result = .ok () → report.committed.length = plan.scripts.length

theorem PerScript.of_progress {done rest : List Script} {report : Report}
    {result : Except Failure Unit} {after : World}
    (h : runner.Progress plan world done rest (runner.closingStatements plan world result)
      report.outcomes after) (hcomplete : result = .ok () → rest = []) :
    runner.PerScript plan world report result after := by
  have hlength : report.committed.length = done.length := by
    rw [Report.committed_of_marks h.outcomes, List.length_map]
  -- the number of committed scripts is where the plan was cut
  have htake : plan.scripts.take report.committed.length = done := by
    rw [hlength, h.scripts, List.take_left]
  have hdrop : plan.scripts.drop report.committed.length = rest := by
    rw [hlength, h.scripts, List.drop_left]
  refine ⟨by rwa [htake, hdrop], fun hok => ?_⟩
  rw [hlength, h.scripts, hcomplete hok, List.append_nil]

/-- A run in which every script is a transaction of its own commits the first scripts of its plan
and leaves nothing else of it; a plan without scripts changes nothing. -/
theorem execute_perScript (hhooks : runner.hooks.OnlyExecute) (hmode : runner.mode = .perScript)
    (hreach : world.database.unreachable = false) :
    let run := (runner.execute plan).run world
    if plan.isEmpty then run.1.1.outcomes = [] ∧ run.1.2 = .ok () ∧ run.2 = world
    else runner.PerScript plan world run.1.1 run.1.2 run.2 := by
  by_cases hidle : plan.isEmpty = true
  · simp [execute_idle hidle, hidle]
  · rw [execute_busy (by simpa using hidle), Procedure.run_bind]
    have hends : Ends (runner.runScripts plan) world _ _ := ends_runScripts.mpr
      ((if_neg (by simp [hreach])).mpr (by
        rw [runMode, hmode]
        exact ends_runPerScript hhooks))
    -- a run that failed goes on with the abort script, one that succeeded is over
    rcases hrun : (runner.runScripts plan).run.run world with ⟨⟨outcomes, failure⟩ | outcomes, now⟩
    · obtain ⟨done, rest, hprogress⟩ := hends.of_error hrun
      simp only [run_conclude_error, if_neg hidle]
      refine PerScript.of_progress ⟨hprogress.scripts, hprogress.outcomes, ?_⟩ (by simp)
      have heffect := hprogress.effect
      rw [List.append_nil] at heffect
      dsimp only [closingStatements]
      by_cases hup : plan.direction.isUp = true
      · have hsame := (sameCircumstances_start runner plan world).trans heffect.circumstances
        have habort : runner.Effect plan.direction []
            (runner.abortStatements world.database) now _ := effect_abort plan.direction hsame
        rw [if_pos hup, if_pos hup]
        simpa only [List.append_nil] using heffect.append habort
      · rw [if_neg hup, if_neg hup, List.append_nil]
        exact heffect
    · have hprogress := hends.of_ok hrun
      simp only [run_conclude_ok, if_neg hidle]
      exact PerScript.of_progress hprogress fun _ => rfl

/-- A runner with a file of statements before each script and an abort script. -/
private def cautious : Runner where
  ledger := ⟨"changes"⟩
  hooks := {
    layout := default
    find? := fun slot =>
      if slot = .beforeEach .up then some (.statements ⟨"check.sql"⟩ {} {}) else none }
  onAbort := some "clean up;"

/-- A plan whose second script fails in `halfway`. -/
private def twoScripts : Plan where
  direction := .up
  scripts := [.ofUp ⟨1⟩ "first" "create a;", .ofUp ⟨2⟩ "second" "create b;\ndrop c;"]

/-- A world in which nothing can be dropped. -/
private def halfway : World where
  database := { failures := ["drop"] }
  home := ⟨[(["check.sql"], .file "check;".toUTF8 false)]⟩

/-- The first script stays when the second one fails. -/
theorem execute_perScript_halfway :
    let run := (cautious.execute twoScripts).run halfway
    cautious.PerScript twoScripts halfway run.1.1 run.1.2 run.2 ∧
      run.1.1.committed = [⟨1⟩] ∧ run.2.database.log = ["check", "create a", "clean up"] := by
  have hhooks : cautious.hooks.OnlyExecute := by
    intro slot hook hfind
    have hhook : hook = .statements ⟨"check.sql"⟩ {} {} := by
      simp only [cautious] at hfind
      split at hfind
      · exact (Option.some.inj hfind).symm
      · cases hfind
    rw [hhook]
    exact Hook.onlyExecutes_statements _ _ _
  have hrun := @execute_perScript cautious twoScripts halfway hhooks rfl rfl
  exact ⟨(if_neg (by decide)).mp hrun, by decide +kernel, by decide +kernel⟩

end Runner

end Migrations

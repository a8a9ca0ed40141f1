import Migrations.Proofs.Run.Execution

/-!
# Outcomes of Runs

What a report says about the scripts of a run, for any hooks and any database.  A run that succeeds
has committed all of its scripts.  A run that fails was stopped by one script or by a hook around
all of them, and the scripts before and after that point are reported as the mode of the run
demands.

## Main statements

- `Runner.ends_apply_blames`: why one script can fail.
- `Runner.execute_reported`: where a run can be stopped, and what its report says then.
- `Runner.execute_blames_iff`: which failures name the script that the report shows as failed.
-/

namespace Migrations

open Attempt

/-! ## Lists of outcomes -/

namespace Outcome

/-- The outcome without the number of statements. -/
def uncounted (outcome : Outcome) : Outcome := { outcome with statements := 0 }

@[simp] theorem uncounted_pending (script : Script) :
    (pending script).uncounted = pending script := rfl

@[simp] theorem uncounted_reached (script : Script) (state : ScriptState) (statements : Nat) :
    (reached script state statements).uncounted = reached script state := rfl

theorem map_uncounted_pending (scripts : List Script) :
    (scripts.map pending).map uncounted = scripts.map pending := by
  simp

/-- The outcomes of scripts that are all in one state. -/
def all (state : ScriptState) (scripts : List Script) : List Outcome :=
  scripts.map fun script => reached script state

@[simp] theorem all_nil (state : ScriptState) : all state [] = [] := rfl

@[simp] theorem all_cons (state : ScriptState) (script : Script) (rest : List Script) :
    all state (script :: rest) = reached script state :: all state rest := rfl

@[simp] theorem all_append (state : ScriptState) (scripts others : List Script) :
    all state (scripts ++ others) = all state scripts ++ all state others := List.map_append

/-- The outcomes of a run that was stopped: scripts that it was done with, the script that failed
if there is one, and scripts that it did not come to. -/
def stopped (first : ScriptState) (done : List Script) (failed? : Option Script)
    (rest : List Script) : List Outcome :=
  all first done ++ all .failed failed?.toList ++ all .pending rest

/-- The marks of outcomes do not depend on the number of statements either. -/
theorem map_mark_uncounted (outcomes : List Outcome) :
    (outcomes.map uncounted).map mark = outcomes.map mark := by
  rw [List.map_map]
  rfl

theorem map_mark_all (state : ScriptState) (scripts : List Script) :
    (all state scripts).map mark = Script.marks (state = .committed) scripts := by
  rw [all, List.map_map]
  rfl

theorem map_uncounted_commitAll (outcomes : List Outcome) :
    (commitAll outcomes).map uncounted = commitAll (outcomes.map uncounted) := by
  unfold commitAll
  rw [List.map_map, List.map_map]
  refine List.map_congr_left fun outcome _ => ?_
  by_cases hstate : outcome.state = .running
  · simp [uncounted, hstate]
  · simp [uncounted, hstate]

theorem commitAll_running (scripts : List Script) :
    commitAll (all .running scripts) = all .committed scripts := by
  simp [commitAll, all, reached]

/-- To give scripts up depends on their states, not on the number of their statements. -/
theorem map_uncounted_abandonAll (outcomes : List Outcome) :
    (abandonAll outcomes).map uncounted = abandonAll (outcomes.map uncounted) := by
  induction outcomes with
  | nil => rfl
  | cons outcome rest ih =>
    have hlater : (rest.map uncounted).any (fun later => later.state = .running) =
        rest.any fun later => later.state = .running := by
      rw [List.any_map]
      rfl
    rw [abandonAll, List.map_cons, ih, List.map_cons, abandonAll, hlater]
    refine congrArg (· :: _) ?_
    by_cases hstate : outcome.state = .running
    · cases hany : rest.any fun later => later.state = .running with
      | true => simp [uncounted, hstate]
      | false => simp [uncounted, hstate]
    · simp [uncounted, hstate]

/-- Scripts that are pending are not running. -/
theorem any_running_pending (scripts : List Script) :
    (all .pending scripts).any (fun later => later.state = .running) = false := by
  simp [all, reached]

theorem abandonAll_pending (scripts : List Script) :
    abandonAll (all .pending scripts) = all .pending scripts := by
  induction scripts with
  | nil => rfl
  | cons script rest ih =>
    rw [all_cons, abandonAll, ih]
    simp [reached]

/-- Of the scripts that were running the last one failed with the number that it had, and the ones
before it are pending. -/
theorem abandonAll_reached (done : List Script) (statements : Script → Nat) (last : Script)
    (n : Nat) (rest : List Script) :
    abandonAll (done.map (fun script => reached script .running (statements script)) ++
        reached last .running n :: all .pending rest) =
      all .pending done ++ reached last .failed n :: all .pending rest := by
  induction done with
  | nil =>
    rw [List.map_nil, List.nil_append, abandonAll, abandonAll_pending, any_running_pending]
    simp [reached]
  | cons script others ih =>
    -- the last script is still to come, so it is not this one that failed
    have hlater : (others.map (fun script => reached script .running (statements script)) ++
        reached last .running n :: all .pending rest).any
          (fun later => later.state = .running) = true := by
      simp [reached]
    rw [List.map_cons, List.cons_append, abandonAll, ih, hlater]
    simp [reached, pending]

theorem abandonAll_running (done : List Script) (last : Script) (rest : List Script) :
    abandonAll (all .running (done ++ [last]) ++ all .pending rest) =
      stopped .pending done (some last) rest := by
  rw [all_append, List.append_assoc]
  refine (abandonAll_reached done (fun _ => 0) last 0 rest).trans ?_
  simp [stopped]

end Outcome

/-- Which scripts are in a state does not depend on the number of their statements. -/
theorem Report.idsOf_eq (report : Report) (state : ScriptState) :
    report.idsOf state = ((report.outcomes.map Outcome.uncounted).filter
      (fun outcome => outcome.state = state)).map Outcome.id := by
  rw [idsOf, List.filter_map, List.map_map]
  rfl

/-! ## Failures of one script -/

/-- Why one script of a run fails: it has no section for the direction, a statement of it fails, the
hook before it or the hook after it fails, or the ledger refuses its row. -/
inductive Failure.Blames (script : Script) : Failure → Prop where
  | irreversible : Blames script (.irreversible script.id script.filename)
  | statement (fault : DatabaseFault) : Blames script (.execution script.id (.database fault))
  | hook (name : String) {phase : HookPhase} (h : phase ≠ .after) (fault : HookFault) :
    Blames script (.hook name phase (some script.id) fault)
  | row (table : String) (fault : DatabaseFault) :
    Blames script (.persistence (.refused .write table fault))

/-- The failures that do not say which script the report shows as failed: the one of a row that the
ledger refuses, and the one of the hook after scripts that are one transaction. -/
inductive Failure.Misattributed (mode : TransactionMode) : Failure → Prop where
  | row (table : String) (fault : DatabaseFault) :
    Misattributed mode (.persistence (.refused .write table fault))
  | closing (h : mode = .perPlan) (name : String) (fault : HookFault) :
    Misattributed mode (.hook name .after none fault)

theorem Script.blames_of_text {script : Script} {direction : Direction} {failure : Failure}
    (h : script.text direction = .error failure) : failure.Blames script := by
  cases direction with
  | up => cases h
  | down =>
    unfold text at h
    cases hdown : script.down with
    | some text =>
      rw [hdown] at h
      cases h
    | none =>
      rw [hdown] at h
      cases h
      exact .irreversible

namespace Runner

variable {runner : Runner} {direction : Direction} {world : World}

/-- A hook that fails gives its name, and the change that it was called for. -/
theorem ends_callHook_failure (slot : HookSlot) (change? : Option (Change × Nat))
    (tx : Transaction) :
    Ends (runner.callHook slot change? tx) world (fun _ _ => True)
      (fun failure _ => ∃ hook fault, runner.hooks.find? slot = some hook ∧
        failure = .hook hook.name slot.phase (change?.map fun change => change.1.id) fault) := by
  rw [ends_callHook_eq]
  cases hfind : runner.hooks.find? slot with
  | none => trivial
  | some hook =>
    -- whatever the hook does, only a failure of its own comes out of it
    exact (ends_run_self _ world).mono (fun _ _ _ => trivial)
      fun fault _ _ => ⟨hook, fault, rfl, rfl⟩

theorem ends_apply_blames (sequence : Nat) (script : Script) (text : String) (tx : Transaction) :
    Ends (runner.apply direction sequence script text tx) world (fun _ _ => True)
      (fun failure _ => failure.Blames script) := by
  rw [ends_apply_eq]
  refine (ends_callHook_failure _ _ tx).mono (fun t now _ => ?_) ?_
  · split
    · refine (ends_callHook_failure _ _ _).mono (fun u then' _ => ?_) ?_
      · refine (ends_writeLedger_row script u).mono (fun _ _ _ => trivial) ?_
        rintro _ _ ⟨-, fault, rfl⟩
        exact .row _ fault
      · rintro _ _ ⟨hook, fault, -, rfl⟩
        exact .hook hook.name (by simp [HookSlot.phase]) fault
    · exact .statement _
  · rintro _ _ ⟨hook, fault, -, rfl⟩
    exact .hook hook.name (by simp [HookSlot.phase]) fault

/-! ## Scripts from one to the next -/

/-- How the scripts of a run are stopped that are executed from one to the next: one of them fails
after the others before it, or all of them are done and the hook after them fails.  The states that
scripts have then, the last one and the ones before it, are those of the outcomes. -/
inductive Halt (first last : ScriptState) (scripts : List Script) : List Outcome × Failure → Prop
    where
  | script {outcomes : List Outcome} {failure : Failure} {script : Script}
    (done rest : List Script) (hscripts : scripts = done ++ script :: rest)
    (hfailure : failure.Blames script)
    (houtcomes : outcomes.map Outcome.uncounted = Outcome.all first done ++
      Outcome.all last [script] ++ Outcome.all .pending rest) :
    Halt first last scripts (outcomes, failure)
  | after {outcomes : List Outcome} (name : String) (fault : HookFault)
    (houtcomes : outcomes.map Outcome.uncounted = Outcome.all first scripts) :
    Halt first last scripts (outcomes, .hook name .after none fault)

/-- Whatever stops the first script, the others are not begun. -/
theorem Halt.head {first last : ScriptState} {script : Script} {failure : Failure}
    (h : failure.Blames script) (rest : List Script) :
    Halt first last (script :: rest) (.reached script last :: rest.map .pending, failure) := by
  refine .script [] rest rfl h ?_
  rw [List.map_cons, Outcome.map_uncounted_pending]
  rfl

/-- A script that was executed before does not change how the others are stopped. -/
theorem Halt.cons {first last : ScriptState} {scripts : List Script}
    {failure : List Outcome × Failure} (h : Halt first last scripts failure) (script : Script)
    (statements : Nat) :
    Halt first last (script :: scripts)
      (.reached script first statements :: failure.1, failure.2) := by
  cases h with
  | script done rest hscripts hfailure houtcomes =>
    refine .script (script :: done) rest (congrArg (script :: ·) hscripts) hfailure ?_
    simp [houtcomes]
  | after name fault houtcomes =>
    refine .after name fault ?_
    simp [houtcomes]

theorem ends_callHookAlone_failure (slot : HookSlot) :
    Ends (runner.callHookAlone slot) world (fun _ _ => True)
      (fun failure _ => ∃ name fault, failure = .hook name slot.phase none fault) := by
  rw [ends_callHookAlone_eq]
  split
  · refine (ends_callHook_failure slot none {}).mono (fun _ _ _ => trivial) ?_
    rintro _ _ ⟨hook, fault, -, rfl⟩
    exact ⟨hook.name, fault, rfl⟩
  · trivial

theorem ends_applyOneByOne_halt (scripts : List Script) (sequence : Nat) :
    Ends (runner.applyOneByOne direction sequence scripts) world
      (fun outcomes _ => outcomes.map Outcome.uncounted = Outcome.all .committed scripts)
      (fun failure _ => Halt .committed .failed scripts failure) := by
  induction scripts generalizing sequence world with
  | nil =>
    rw [ends_applyOneByOne_nil]
    refine (ends_callHookAlone_failure _).mono (fun _ _ _ => rfl) ?_
    rintro _ _ ⟨name, fault, rfl⟩
    exact .after name fault rfl
  | cons script rest ih =>
    rw [ends_applyOneByOne_cons, ends_applyAlone_eq]
    cases htext : script.text direction with
    | error failure => exact .head (Script.blames_of_text htext) rest
    | ok text =>
      refine (ends_apply_blames sequence script text {}).mono (fun result now _ => ?_)
        fun _ _ hblames => .head hblames rest
      refine (ih (sequence + 1)).mono (fun outcomes _ houtcomes => ?_) fun failure _ hhalt => ?_
      · show List.map _ (_ :: outcomes) = _
        simp [houtcomes]
      · exact hhalt.cons script _

/-- Scripts that are one transaction are not committed when they are stopped. -/
theorem Halt.marks {scripts : List Script} {failure : List Outcome × Failure}
    (h : Halt .running .running scripts failure) :
    failure.1.map Outcome.mark = Script.marks false scripts := by
  cases h with
  | script done rest hscripts hfailure houtcomes =>
    rw [← Outcome.map_mark_uncounted, houtcomes, hscripts, List.map_append, List.map_append]
    simp only [Outcome.map_mark_all]
    simp [Script.marks]
  | after name fault houtcomes =>
    rw [← Outcome.map_mark_uncounted, houtcomes]
    simp [Outcome.map_mark_all]

theorem ends_applyTogether_halt (scripts : List Script) (sequence : Nat) (tx : Transaction) :
    Ends (runner.applyTogether direction sequence scripts tx) world
      (fun result _ => result.2.map Outcome.uncounted = Outcome.all .running scripts)
      (fun failure _ => Halt .running .running scripts failure) := by
  induction scripts generalizing sequence tx world with
  | nil =>
    rw [ends_applyTogether_nil]
    refine (ends_callHook_failure _ none tx).mono (fun _ _ _ => rfl) ?_
    rintro _ _ ⟨hook, fault, -, rfl⟩
    exact .after hook.name fault rfl
  | cons script rest ih =>
    rw [ends_applyTogether_cons]
    cases htext : script.text direction with
    | error failure => exact .head (Script.blames_of_text htext) rest
    | ok text =>
      refine (ends_apply_blames sequence script text tx).mono (fun result now _ => ?_)
        fun _ _ hblames => .head hblames rest
      refine (ih (sequence + 1) result.1).mono (fun last _ houtcomes => ?_)
        fun failure _ hhalt => ?_
      · show List.map _ (_ :: last.2) = _
        simp [houtcomes]
      · exact hhalt.cons script _

/-! ## Runs -/

/-- What becomes of the scripts that a run is done with when it is stopped. -/
def settled : TransactionMode → ScriptState
  | .perScript => .committed
  | .perPlan => .pending

/-- Where a run is stopped, and by which failure. -/
inductive Stop (runner : Runner) (plan : Plan) :
    Failure → List Script → Option Script → List Script → Prop where
  /-- The ledger cannot be asked for its table. -/
  | ledger : Stop runner plan runner.ledger.refusal [] none plan.scripts
  | before (name : String) (fault : HookFault) :
    Stop runner plan (.hook name .before none fault) [] none plan.scripts
  | script {failure : Failure} {done rest : List Script} {script : Script}
    (hscripts : plan.scripts = done ++ script :: rest) (hfailure : failure.Blames script) :
    Stop runner plan failure done (some script) rest
  | after (hmode : runner.mode = .perScript) (name : String) (fault : HookFault) :
    Stop runner plan (.hook name .after none fault) plan.scripts none []
  /-- The hook after scripts that are one transaction fails, and the last of them goes for the one
  that failed. -/
  | afterTogether (hmode : runner.mode = .perPlan) {done : List Script} {last : Script}
    (hscripts : plan.scripts = done ++ [last]) (name : String) (fault : HookFault) :
    Stop runner plan (.hook name .after none fault) done (some last) []

variable {plan : Plan}

/-- The scripts of the plan are the ones that were done, the one that failed and the rest. -/
theorem Stop.scripts {failure : Failure} {done rest : List Script} {failed? : Option Script}
    (h : runner.Stop plan failure done failed? rest) :
    plan.scripts = done ++ failed?.toList ++ rest := by
  cases h with
  | ledger => rfl
  | before name fault => rfl
  | script hscripts _ => simp [hscripts]
  | after _ name fault => simp
  | afterTogether _ hscripts name fault => simp [hscripts]

/-- What a report says: all scripts are committed, or the run was stopped. -/
def Reported (runner : Runner) (plan : Plan) (outcomes : List Outcome) :
    Except Failure Unit → Prop
  | .ok () => outcomes.map Outcome.uncounted = Outcome.all .committed plan.scripts
  | .error failure => ∃ done failed? rest, runner.Stop plan failure done failed? rest ∧
      outcomes.map Outcome.uncounted = Outcome.stopped (settled runner.mode) done failed? rest

/-- No script is left running. -/
theorem Reported.not_running {outcomes : List Outcome} {result : Except Failure Unit}
    (h : runner.Reported plan outcomes result) :
    ∀ outcome ∈ outcomes, outcome.state ≠ .running := by
  have hstates : ∀ others : List Outcome, outcomes.map Outcome.uncounted = others →
      (∀ other ∈ others, other.state ≠ .running) →
      ∀ outcome ∈ outcomes, outcome.state ≠ .running := by
    rintro _ rfl hothers outcome hmem
    exact hothers outcome.uncounted (List.mem_map_of_mem hmem)
  have hall : ∀ {state : ScriptState}, state ≠ .running → ∀ scripts,
      ∀ other ∈ Outcome.all state scripts, other.state ≠ .running := by
    intro state hstate scripts other hmem
    obtain ⟨script, -, rfl⟩ := List.mem_map.mp hmem
    exact hstate
  cases result with
  | ok _ => exact hstates _ h (hall (by simp) _)
  | error failure =>
    obtain ⟨done, failed?, rest, -, houtcomes⟩ := h
    refine hstates _ houtcomes fun other hmem => ?_
    rcases List.mem_append.mp hmem with hmem | hmem
    · rcases List.mem_append.mp hmem with hmem | hmem
      · refine hall ?_ _ other hmem
        cases runner.mode with
        | perScript => simp [settled]
        | perPlan => simp [settled]
      · exact hall (by simp) _ other hmem
    · exact hall (by simp) _ other hmem

theorem ends_runPerScript_reported (hmode : runner.mode = .perScript) :
    Ends (runner.runPerScript plan) world (fun outcomes _ => runner.Reported plan outcomes (.ok ()))
      (fun failure _ => runner.Reported plan failure.1 (.error failure.2)) := by
  rw [ends_runPerScript_eq]
  refine (ends_callHookAlone_failure _).mono (fun _ now _ => ?_) ?_
  · refine (ends_applyOneByOne_halt plan.scripts 0).mono (fun _ _ h => h) fun failure _ hhalt => ?_
    cases hhalt with
    | script done rest hscripts hfailure houtcomes =>
      exact ⟨_, _, _, .script hscripts hfailure, by rw [houtcomes, hmode]; rfl⟩
    | after name fault houtcomes =>
      refine ⟨_, _, _, .after hmode name fault, ?_⟩
      rw [houtcomes, hmode]
      simp [Outcome.stopped, settled]
  · rintro _ _ ⟨name, fault, rfl⟩
    exact ⟨_, _, _, .before name fault, Outcome.map_uncounted_pending _⟩

theorem ends_runPerPlan_reported (hmode : runner.mode = .perPlan) (hbusy : plan.isEmpty = false) :
    Ends (runner.runPerPlan plan) world (fun outcomes _ => runner.Reported plan outcomes (.ok ()))
      (fun failure _ => runner.Reported plan failure.1 (.error failure.2)) := by
  rw [ends_runPerPlan_eq]
  refine (ends_callHook_failure _ none {}).mono (fun t now _ => ?_) ?_
  · refine (ends_applyTogether_halt plan.scripts 0 t).mono (fun result _ houtcomes => ?_)
      fun failure _ hhalt => ?_
    · show (Outcome.commitAll result.2).map _ = _
      rw [Outcome.map_uncounted_commitAll, houtcomes, Outcome.commitAll_running]
    · cases hhalt with
      | script done rest hscripts hfailure houtcomes =>
        refine ⟨_, _, _, .script hscripts hfailure, ?_⟩
        rw [Outcome.map_uncounted_abandonAll, houtcomes, ← Outcome.all_append,
          Outcome.abandonAll_running, hmode]
        rfl
      | after name fault houtcomes =>
        obtain hnil | ⟨done, last, hscripts⟩ := List.eq_nil_or_concat plan.scripts
        · simp [Plan.isEmpty, hnil] at hbusy
        · rw [List.concat_eq_append] at hscripts
          refine ⟨_, _, _, .afterTogether hmode hscripts name fault, ?_⟩
          have habandoned := Outcome.abandonAll_running done last []
          rw [Outcome.map_uncounted_abandonAll, houtcomes, hscripts, hmode]
          simpa [settled] using habandoned
  · rintro _ _ ⟨hook, fault, -, rfl⟩
    refine ⟨_, _, _, .before hook.name fault, ?_⟩
    rw [Outcome.map_uncounted_abandonAll, Outcome.map_uncounted_pending]
    exact Outcome.abandonAll_pending _

/-- Whatever the hooks and the database do, a report shows either that all scripts were committed or
where the run was stopped. -/
theorem execute_reported (runner : Runner) (plan : Plan) (world : World) :
    runner.Reported plan ((runner.execute plan).run world).1.1.outcomes
      ((runner.execute plan).run world).1.2 := by
  by_cases hidle : plan.isEmpty = true
  · rw [execute_idle hidle]
    have hnone : plan.scripts = [] := List.isEmpty_iff.mp hidle
    simp [Reported, hnone]
  · have hbusy : plan.isEmpty = false := by simpa using hidle
    have hends : Ends (runner.runScripts plan) world
        (fun outcomes _ => runner.Reported plan outcomes (.ok ()))
        (fun failure _ => runner.Reported plan failure.1 (.error failure.2)) := by
      rw [ends_runScripts]
      split
      · exact ⟨_, _, _, .ledger, Outcome.map_uncounted_pending _⟩
      · unfold runMode
        split
        · rename_i hmode
          exact ends_runPerScript_reported hmode
        · rename_i hmode
          exact ends_runPerPlan_reported hmode hbusy
    rw [execute_busy hbusy, Procedure.run_bind]
    rcases hrun : (runner.runScripts plan).run.run world with ⟨⟨outcomes, failure⟩ | outcomes, now⟩
    · rw [run_conclude_error]
      exact hends.of_error hrun
    · rw [run_conclude_ok]
      exact hends.of_ok hrun

/-! ## Blame -/

/-- The id of the script that a report shows as failed is the one of the script that failed. -/
theorem failed?_of_stopped {report : Report} {mode : TransactionMode} {done rest : List Script}
    {failed? : Option Script} (h : report.outcomes.map Outcome.uncounted =
      Outcome.stopped (settled mode) done failed? rest) :
    report.failed? = failed?.map Script.id := by
  have hothers : ∀ {state : ScriptState}, state ≠ .failed → ∀ scripts,
      (Outcome.all state scripts).filter (fun outcome => outcome.state = .failed) = [] := by
    intro state hstate scripts
    simp [Outcome.all, Outcome.reached, hstate]
  have hsettled : settled mode ≠ .failed := by
    cases mode with
    | perScript => exact ScriptState.noConfusion
    | perPlan => exact ScriptState.noConfusion
  have hpending : ScriptState.pending ≠ .failed := ScriptState.noConfusion
  have hids : report.idsOf .failed = failed?.toList.map Script.id := by
    rw [Report.idsOf_eq, h, Outcome.stopped, List.filter_append, List.filter_append,
      hothers hsettled, hothers hpending]
    cases failed? with
    | none => rfl
    | some script => rfl
  rw [Report.failed?, hids]
  cases failed? with
  | none => rfl
  | some script => rfl

/-- The failure of a run belongs to the script that the report shows as failed, and to no script
when the report shows none, unless it is one of those that do not say so. -/
theorem execute_blames_iff {runner : Runner} {plan : Plan} {world : World} {failure : Failure}
    (hfailure : ((runner.execute plan).run world).1.2 = .error failure) :
    ((runner.execute plan).run world).1.1.failed? = failure.changeId? ↔
      ¬ failure.Misattributed runner.mode := by
  have hreported := execute_reported runner plan world
  rw [hfailure] at hreported
  obtain ⟨done, failed?, rest, hstop, houtcomes⟩ := hreported
  rw [failed?_of_stopped houtcomes]
  cases hstop with
  | ledger => exact iff_of_true rfl (by rintro ⟨⟩)
  | before name fault => exact iff_of_true rfl (by rintro ⟨⟩)
  | script hscripts hblames =>
    cases hblames with
    | irreversible => exact iff_of_true rfl (by rintro ⟨⟩)
    | statement fault => exact iff_of_true rfl (by rintro ⟨⟩)
    | hook name hphase fault => exact iff_of_true rfl (by rintro ⟨⟩)
    -- the script failed because of its row, but the failure has no id
    | row table fault => exact iff_of_false (fun h => nomatch h) fun h => h (.row table fault)
  | after hmode name fault =>
    refine iff_of_true rfl ?_
    rintro (_ | ⟨hplan, -, -⟩)
    rw [hmode] at hplan
    cases hplan
  -- the hook failed, but the last script is shown as failed
  | afterTogether hmode hscripts name fault =>
    exact iff_of_false (fun h => nomatch h) fun h => h (.closing hmode name fault)

/-- A plan of two scripts. -/
private def pair : Plan where
  direction := .up
  scripts := [.ofUp ⟨1⟩ "first" "create a;", .ofUp ⟨2⟩ "second" "create b;"]

/-- A runner with one hook of the process. -/
private def hooked (mode : TransactionMode) (slot : HookSlot)
    (f : Database → Except HookFault Unit × Database) : Runner where
  ledger := ⟨"changes"⟩
  hooks := Hooks.register { layout := default } slot (.callback "hook" fun _ => f)
  mode := mode

/-- A runner that loses its database before a row is written. -/
private def losing : Runner :=
  hooked .perScript (.afterEach .up) fun db => (.ok (), { db with unreachable := true })

/-- A runner that rejects every run in the end. -/
private def rejecting : Runner :=
  hooked .perPlan (.after .up) fun db => (.error (.rejected "no"), db)

/-- A statement that fails is the fault of its script, also when no script is committed. -/
theorem execute_blames_iff_pair :
    let run := (rejecting.execute pair).run { database := { failures := ["b"] } }
    run.1.2 = .error (.execution ⟨2⟩ (.database (.statement "b" "create b"))) ∧
      run.1.1.failed? = some ⟨2⟩ := by
  have hfailure : ((rejecting.execute pair).run { database := { failures := ["b"] } }).1.2 =
      .error (.execution ⟨2⟩ (.database (.statement "b" "create b"))) := by
    decide +kernel
  refine ⟨hfailure, (execute_blames_iff hfailure).mpr ?_⟩
  rintro ⟨⟩

/-- A report can show a script as failed while the failure has no id: the script whose row cannot be
written, and the last script when the hook after the run rejects it. -/
theorem execute_blames_nobody :
    (∃ failure, ((losing.execute pair).run {}).1.2 = .error failure ∧
      ((losing.execute pair).run {}).1.1.failed? = some ⟨1⟩ ∧ failure.changeId? = none) ∧
    (∃ failure, ((rejecting.execute pair).run {}).1.2 = .error failure ∧
      ((rejecting.execute pair).run {}).1.1.failed? = some ⟨2⟩ ∧ failure.changeId? = none) := by
  constructor
  · refine ⟨.persistence (.refused .write "changes" (.connectionLost "changes")), ?_, ?_, rfl⟩
    · decide +kernel
    · decide +kernel
  · refine ⟨.hook "hook" .after none (.rejected "no"), ?_, ?_, rfl⟩
    · decide +kernel
    · decide +kernel

end Runner

end Migrations

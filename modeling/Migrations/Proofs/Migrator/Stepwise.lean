import Migrations.Proofs.Migrator.Planning
import Migrations.Proofs.Run.Agreement
import Migrations.Proofs.Run.Stepwise

/-!
# Steps after Steps

A run by some steps and then by some more does what one run by all of them does, in either direction
and in either mode.  The second run is planned from the ledger that the first one left: upwards the
pending scripts that come first are not pending any more, downwards the last rows are gone, and what
is selected next is what the one run would have gone on with.

## Main statements

- `Plan.make_steps_append`: the plan for all steps is the plan for the first ones, and then that for
  the others.
- `Migrator.run_move_eq_ok`: what a run that succeeds consists of.
- `Migrator.move_steps_append`: what two runs by steps come to.
-/

namespace Migrations

open Attempt RunLock

/-! ## Plans by steps -/

section Selections

variable {done : List Script} {before after : Option Table} {a : Nat} (b : Nat)

/-- After the first pending scripts were applied, a run upwards reaches those that come next. -/
theorem Catalog.selectUp_recorded {catalog : Catalog}
    (hids : done.map Script.id =
      ((catalog.pendingEntries (Table.rowsOf before)).take a).map ScriptEntry.id)
    (h : Runner.Recorded .up done before after) :
    catalog.selectUp (Table.rowsOf after) (.steps b) =
      ((catalog.pendingEntries (Table.rowsOf before)).drop a).take b := by
  have hpending : catalog.pendingEntries (Table.rowsOf after) =
      (catalog.pendingEntries (Table.rowsOf before)).drop a := by
    refine pendingEntries_rest (List.take_append_drop a _).symm fun id => ?_
    rw [← hids]
    exact h.moves id
  rw [selectUp_steps, hpending]

/-- After the last rows were undone, a run downwards reaches those that come before them. -/
theorem Catalog.selectDown_recorded
    (hids : done.map Script.id = ((Table.rowsOf before).reverse.take a).map Change.id)
    (h : Runner.Recorded .down done before after) :
    selectDown (Table.rowsOf after) (.steps b) =
      ((Table.rowsOf before).reverse.drop a).take b := by
  have hascending : (Table.rowsOf before).Pairwise (fun a b => a.id < b.id) := Table.ascending _
  have hsplit : Table.rowsOf before = ((Table.rowsOf before).reverse.drop a).reverse ++
      ((Table.rowsOf before).reverse.take a).reverse := by
    rw [← List.reverse_append, List.take_append_drop, List.reverse_reverse]
  -- the rows that are left are those in front of the ones that were undone
  have hkept := Change.filter_append_new (hsplit ▸ hascending)
  rw [← hsplit, List.map_reverse, ← hids] at hkept
  simp only [List.mem_reverse] at hkept
  have hafter : Table.rowsOf after =
      (Table.rowsOf before).filter (fun row => row.id ∉ done.map Script.id) := h.2
  have hnow : (Table.rowsOf after).Pairwise (fun a b => a.id < b.id) := Table.ascending _
  rw [selectDown_steps hnow, hafter, hkept, List.reverse_reverse]

end Selections

namespace Plan

variable {catalog : Catalog} {home : Home} {ledger : List Change} {whole : Plan}
  {direction : Direction}

/-- The plan for some steps is the first part of the plan for more, and once the ledger has its
changes the plan for the other steps is the second part. -/
theorem make_steps_append {a b : Nat} (ha : 0 < a) (hb : 0 < b) (hfiles : catalog.OnFiles)
    (hledger : ledger.Pairwise (fun a b => a.id < b.id))
    (h : make catalog home ledger direction (.steps (a + b)) = .ok whole) :
    ∃ first rest, make catalog home ledger direction (.steps a) = .ok first ∧
      whole.scripts = first.scripts ++ rest ∧
      ∀ before after : Option Table, Table.rowsOf before = ledger →
        Runner.Recorded direction first.scripts before after →
        ∃ second, make catalog home (Table.rowsOf after) direction (.steps b) = .ok second ∧
          second.scripts = rest := by
  have hsteps : ∀ {n : Nat}, 0 < n → Target.steps n ≠ .steps 0 := by
    intro n hn
    simp
    omega
  cases direction with
  | up =>
    obtain ⟨-, scripts, hscripts, rfl⟩ := make_up_eq_ok.mp h
    rw [Catalog.selectUp_steps, List.take_add] at hscripts
    obtain ⟨done, rest, rfl, hdone, hrest⟩ := Catalog.loadAll_append hscripts
    rw [← Catalog.selectUp_steps] at hdone
    refine ⟨_, rest, make_up_eq_ok.mpr ⟨hsteps ha, done, hdone, rfl⟩, rfl, ?_⟩
    rintro before after rfl hrecorded
    rw [Catalog.selectUp_steps] at hdone
    have hids := Catalog.loadAll_ids (fun entry hmem => hfiles entry
      (Catalog.mem_pendingEntries.mp (List.mem_of_mem_take hmem)).1) hdone
    rw [← Catalog.selectUp_recorded b hids hrecorded] at hrest
    exact ⟨_, make_up_eq_ok.mpr ⟨hsteps hb, rest, hrest, rfl⟩, rfl⟩
  | down =>
    obtain ⟨-, scripts, hscripts, rfl⟩ := make_down_eq_ok.mp h
    rw [Catalog.selectDown_steps hledger, List.take_add] at hscripts
    obtain ⟨done, rest, rfl, hdone, hrest⟩ := Catalog.loadApplied_append hscripts
    have hids := Catalog.loadApplied_ids hfiles hdone
    rw [← Catalog.selectDown_steps hledger] at hdone
    refine ⟨_, rest, make_down_eq_ok.mpr ⟨hsteps ha, done, hdone, rfl⟩, rfl, ?_⟩
    rintro before after rfl hrecorded
    rw [← Catalog.selectDown_recorded b hids hrecorded] at hrest
    exact ⟨_, make_down_eq_ok.mpr ⟨hsteps hb, rest, hrest, rfl⟩, rfl⟩

theorem direction_make {direction : Direction} {target : Target}
    (h : make catalog home ledger direction target = .ok whole) : whole.direction = direction := by
  cases direction with
  | up =>
    obtain ⟨-, scripts, -, rfl⟩ := make_up_eq_ok.mp h
    rfl
  | down =>
    obtain ⟨-, scripts, -, rfl⟩ := make_down_eq_ok.mp h
    rfl

end Plan

/-! ## Runs in either direction -/

/-- To give a lock back has nothing to do with times of application. -/
theorem RunLock.timeless_returned (key : Int64) (world : World) :
    (returned key world).database.timeless = (world.database.timeless.unlock key).2 := by
  unfold returned Database.unlock
  cases hstuck : world.database.lockStuck with
  | true => simp [Database.timeless, hstuck]
  | false => simp [Database.timeless, hstuck]

/-- The hooks of runs in a direction are around scripts only and act through their transactions.
They write no rows of the ledger, and over these files they do the same at every position. -/
structure Hooks.Stepwise (hooks : Hooks) (direction : Direction) (table : String) (home : Home) :
    Prop where
  opening : hooks.find? (.before direction) = none
  closing : hooks.find? (.after direction) = none
  confined : ∀ slot hook, slot.direction? = some direction → hooks.find? slot = some hook →
    hook.Confined
  keeps : ∀ slot hook, slot.direction? = some direction → hooks.find? slot = some hook →
    hook.KeepsLedger table
  unnumbered : ∀ slot hook, slot.direction? = some direction → hooks.find? slot = some hook →
    hook.Unnumbered home

/-- Without the hooks of the other direction this holds of all hooks that are left. -/
theorem Hooks.Stepwise.aroundScripts {hooks : Hooks} {direction : Direction} {table : String}
    {home : Home} (h : hooks.Stepwise direction table home) :
    (hooks.during direction).AroundScripts direction home where
  opening := (find?_during rfl).trans h.opening
  closing := (find?_during rfl).trans h.closing
  confined := during_all h.confined
  unnumbered := during_all h.unnumbered

namespace Migrator

variable {migrator : Migrator} {world : World} {direction : Direction} {target : Target}

/-- A run in a direction. -/
def move (migrator : Migrator) : Direction → Target → Attempt Failure Report
  | .up => migrator.up
  | .down => migrator.down

theorem move_eq (migrator : Migrator) (direction : Direction) (target : Target) :
    migrator.move direction target =
      migrator.underLock (migrator.runTarget direction target) := by
  cases direction <;> rfl

/-- The migrator with the hooks of one direction only. -/
def during (migrator : Migrator) (direction : Direction) : Migrator :=
  { migrator with hooks := migrator.hooks.during direction }

/-- A run that succeeds could take the lock, read scripts and ledger, and execute its plan. -/
theorem run_move_eq_ok {report : Report} {final : World} :
    (migrator.move direction target).run.run world = (.ok report, final) ↔
      migrator.settings.lockKey ∉ world.database.locks ∧ world.database.unreachable = false ∧
      ∃ catalog plan onAbort after, migrator.folder.scan world.home = .ok catalog ∧
        Plan.make catalog world.home (migrator.rows world) direction target = .ok plan ∧
        migrator.folder.onAbort? world.home = .ok onAbort ∧
        ((migrator.runner onAbort).run plan).run.run (taken migrator.settings.lockKey world) =
          (.ok report, after) ∧
        returned migrator.settings.lockKey after = final := by
  rw [move_eq]
  constructor
  · intro hrun
    have hends : Ends (migrator.underLock (migrator.runTarget direction target)) world
        (fun result after => result = report ∧ after = final) (fun _ _ => False) := by
      unfold Ends
      rw [hrun]
      exact ⟨rfl, rfl⟩
    -- each part of the run is one that did not fail
    by_cases hheld : migrator.settings.lockKey ∈ world.database.locks
    · rw [underLock, ends_holding, if_pos (List.contains_iff_mem.mpr hheld)] at hends
      exact hends.elim
    rw [ends_underLock hheld, runTarget, ends_bind, plan, ends_planBy, home_taken, rows_taken,
      unreachable_taken] at hends
    cases hscan : migrator.folder.scan world.home with
    | error failure =>
      rw [hscan] at hends
      exact hends.elim
    | ok catalog =>
      simp only [hscan] at hends
      by_cases hreach : world.database.unreachable = true
      · rw [if_pos hreach] at hends
        exact hends.elim
      rw [if_neg hreach] at hends
      cases hplan : Plan.make catalog world.home (migrator.rows world) direction target with
      | error failure =>
        rw [hplan] at hends
        exact hends.elim
      | ok plan =>
        simp only [hplan] at hends
        rw [ends_runPlan, home_taken] at hends
        cases habort : migrator.folder.onAbort? world.home with
        | error failure =>
          rw [habort] at hends
          exact hends.elim
        | ok onAbort =>
          rw [habort] at hends
          obtain ⟨_, after, hexecuted, rfl, rfl⟩ := hends.exists_ok
          exact ⟨hheld, by simpa using hreach, catalog, plan, onAbort, after, rfl, hplan, rfl,
            hexecuted, rfl⟩
  · rintro ⟨hfree, hreach, catalog, plan, onAbort, after, hscan, hplan, habort, hrun, rfl⟩
    apply Ends.run_eq
    rw [ends_runTarget_of_plan hfree hreach hscan hplan, ends_runPlan, home_taken, habort]
    dsimp only
    unfold Ends
    rw [hrun]
    exact ⟨rfl, rfl⟩

/-- The hooks of the other direction play no part in a run. -/
theorem run_move_during {report : Report} {final : World} :
    ((migrator.during direction).move direction target).run.run world = (.ok report, final) ↔
      (migrator.move direction target).run.run world = (.ok report, final) := by
  rw [run_move_eq_ok, run_move_eq_ok]
  -- the plan has the direction of the run, so both runners execute it in the same way
  have hagree : ∀ {catalog plan onAbort} {now : World},
      Plan.make catalog world.home (migrator.rows world) direction target = .ok plan →
      (((migrator.during direction).runner onAbort).run plan).run.run now =
        ((migrator.runner onAbort).run plan).run.run now := by
    intro catalog plan onAbort now hplan
    have hdirection := Plan.direction_make hplan
    subst hdirection
    exact run_eq_of_ends fun _ _ => ((migrator.runner onAbort).agrees_during _).ends_run
  constructor
  · rintro ⟨hfree, hreach, catalog, plan, onAbort, after, hscan, hplan, habort, hrun, hfinal⟩
    exact ⟨hfree, hreach, catalog, plan, onAbort, after, hscan, hplan, habort,
      (hagree hplan).symm.trans hrun, hfinal⟩
  · rintro ⟨hfree, hreach, catalog, plan, onAbort, after, hscan, hplan, habort, hrun, hfinal⟩
    exact ⟨hfree, hreach, catalog, plan, onAbort, after, hscan, hplan, habort,
      (hagree hplan).trans hrun, hfinal⟩

section Steps

variable {whole : Report} {final : World} {a b : Nat} (ha : 0 < a) (hb : 0 < b)
  (hstuck : world.database.lockStuck = false)
  (hrun : (migrator.move direction (.steps (a + b))).run.run world = (.ok whole, final))

include ha hb hstuck hrun

/-- With hooks around scripts only, a run by steps can be had in two runs. -/
theorem exists_moves (haround : migrator.hooks.AroundScripts direction world.home)
    (hkeep : migrator.hooks.KeepLedger migrator.settings.changelogTable) :
    ∃ first between second last,
      (migrator.move direction (.steps a)).run.run world = (.ok first, between) ∧
      (migrator.move direction (.steps b)).run.run between = (.ok second, last) ∧
      last.database.timeless = final.database.timeless ∧
      first.committed ++ second.committed = whole.committed := by
  obtain ⟨hfree, hreach, catalog, plan, onAbort, after, hscan, hplan, habort, hplanned, rfl⟩ :=
    run_move_eq_ok.mp hrun
  obtain ⟨planned, rest, hfirst, hscripts, hnext⟩ :=
    Plan.make_steps_append ha hb (ScriptFolder.onFiles_scan hscan) (rows_ascending _ _) hplan
  -- the run is cut where the first plan ends
  have hdirection := Plan.direction_make hplan
  have hparts : plan.Parts planned ⟨direction, rest, [], []⟩ :=
    ⟨(Plan.direction_make hfirst).trans hdirection.symm, hdirection.symm, hscripts⟩
  have hhome : (taken migrator.settings.lockKey world).home = world.home := home_taken _ _
  have haround' : (migrator.runner onAbort).hooks.AroundScripts plan.direction
      (taken migrator.settings.lockKey world).home := by
    rw [hdirection, hhome]
    exact haround
  obtain ⟨now, last, hdone, hrest, hlast⟩ :=
    Runner.reaches_run_append haround' hkeep hparts (reaches_iff.mpr ⟨whole, hplanned⟩)
  obtain ⟨first, hdone⟩ := reaches_iff.mp hdone
  have hsame : (taken migrator.settings.lockKey world).SameCircumstances now :=
    ((Runner.takes_run ordinary_keeps haround.confined.keep planned).ends_same _).of_ok hdone
  -- the second plan is made from the rows that the first run recorded
  obtain ⟨hfirstIds, base, hbase, hrecorded⟩ :=
    (Runner.ends_run_recorded planned hkeep).of_ok hdone
  rw [Plan.direction_make hfirst] at hrecorded
  obtain ⟨more, hmore, hmoreScripts⟩ := hnext base _ (hbase.trans (rows_taken _ _)) hrecorded
  obtain ⟨second, hsecond⟩ := reaches_iff.mp
    ((Runner.reaches_run_congr (Plan.direction_make hmore) hmoreScripts).mpr hrest)
  have hstuckNow : now.database.lockStuck = false := by
    rw [hsame.lockStuck, lockStuck_taken]
    exact hstuck
  have hhomeNow : (returned migrator.settings.lockKey now).home = world.home := by
    rw [home_returned, hsame.home, hhome]
  refine ⟨first, returned migrator.settings.lockKey now, second,
    returned migrator.settings.lockKey last, ?_, ?_, ?_, ?_⟩
  · exact run_move_eq_ok.mpr ⟨hfree, hreach, catalog, planned, onAbort, now, hscan, hfirst, habort,
      hdone, rfl⟩
  · refine run_move_eq_ok.mpr ⟨free_returned hstuckNow, ?_, catalog, more, onAbort, last, ?_, ?_,
      ?_, ?_, rfl⟩
    · rw [unreachable_returned, hsame.unreachable, unreachable_taken]
      exact hreach
    · rwa [hhomeNow]
    · rw [hhomeNow, rows_returned]
      exact hmore
    · rwa [hhomeNow]
    · have hretaken : taken migrator.settings.lockKey
          (returned migrator.settings.lockKey now) = now :=
        taken_returned hfree hsame.locks hstuckNow
      exact hretaken.symm ▸ hsecond
  · rw [timeless_returned, timeless_returned, hlast]
  · have hwholeIds := ((Runner.ends_run_recorded plan hkeep).of_ok hplanned).1
    have hsecondIds := ((Runner.ends_run_recorded more hkeep).of_ok hsecond).1
    rw [hfirstIds, hsecondIds, hwholeIds, Plan.ids, Plan.ids, Plan.ids, hscripts, hmoreScripts,
      List.map_append]

/-- A run by some steps and then one by more come to what one run by all of them comes to: the same
database but for the times of application, and the same scripts in the same order. -/
theorem move_steps_append
    (hhooks : migrator.hooks.Stepwise direction migrator.settings.changelogTable world.home) :
    ∃ first between second last,
      (migrator.move direction (.steps a)).run.run world = (.ok first, between) ∧
      (migrator.move direction (.steps b)).run.run between = (.ok second, last) ∧
      last.database.timeless = final.database.timeless ∧
      first.committed ++ second.committed = whole.committed := by
  -- only the hooks of this direction matter
  simp only [← @run_move_during migrator] at hrun ⊢
  exact exists_moves ha hb hstuck hrun hhooks.aroundScripts (Hooks.during_all hhooks.keeps)

end Steps

/-- A hook of the process that does the work that belongs to its change. -/
private def worker (work : Option Change → HookWork) : Hook where
  name := "worker"
  call context tx? :=
    match tx? with
    | none => return none
    | some tx => some <$> (work context.change).perform tx

private theorem unnumbered_worker (work : Option Change → HookWork) (home : Home) :
    (worker work).Unnumbered home := fun _ _ _ _ _ => rfl

/-- A migrator that calls the hook after every script, in both directions. -/
private def working (mode : TransactionMode) (work : Option Change → HookWork) : Migrator where
  layout := .below ⟨""⟩
  settings := { transactionMode := mode }
  folder := plain.folder
  hooks := {
    layout := default
    find? := fun
      | .afterEach _ => some (worker work)
      | _ => none }

private theorem find?_working {mode : TransactionMode} {work : Option Change → HookWork}
    {slot : HookSlot} {hook : Hook} (h : (working mode work).hooks.find? slot = some hook) :
    hook = worker work := by
  cases slot with
  | afterEach direction => exact (Option.some.inj h).symm
  | _ => cases h

/-- The work of a hook that keeps a record of scripts in the log. -/
private def auditing (_ : Option Change) : HookWork := .executing ["audit"]

/-- A world with two scripts. -/
private def paired : World where
  home := ⟨[(["scripts"], .folder),
    (["scripts", "1_a.sql"], .file "a;\n-- //@UNDO\nxa;".toUTF8 false),
    (["scripts", "2_b.sql"], .file "b;\n-- //@UNDO\nxb;".toUTF8 false)]⟩

private def pairedEntries : List ScriptEntry :=
  [⟨⟨1⟩, "a", "1_a.sql", .file ⟨"scripts/1_a.sql"⟩⟩,
    ⟨⟨2⟩, "b", "2_b.sql", .file ⟨"scripts/2_b.sql"⟩⟩]

private def pairedScripts : Catalog where
  entries := pairedEntries
  ascending := by decide

private theorem scan_paired (mode : TransactionMode) (work : Option Change → HookWork) :
    (working mode work).folder.scan paired.home = .ok pairedScripts := by
  show plain.folder.scan paired.home = _
  exact ScriptFolder.scan_of_ascending (by rfl) (by rfl) (by rfl) pairedScripts.ascending

private def firstScript : Script := ⟨⟨1⟩, "a", "1_a.sql", "a;\n", some "xa;\n"⟩

private def secondScript : Script := ⟨⟨2⟩, "b", "2_b.sql", "b;\n", some "xb;\n"⟩

private theorem loadAll_paired :
    pairedScripts.loadAll paired.home pairedScripts.entries = .ok [firstScript, secondScript] :=
  eq_ok_of_toOption (by decide +kernel)

private theorem load_paired : ∀ script ∈ [firstScript, secondScript],
    pairedScripts.load? paired.home script.id = .ok (some script) :=
  Catalog.load?_of_loadAll (ScriptFolder.onFiles_scan (scan_paired .perScript auditing))
    (fun _ hmem => hmem) loadAll_paired

/-- The plan for two steps up from an empty ledger. -/
private def pairedPlan : Plan where
  direction := .up
  scripts := [firstScript, secondScript]
  missing := pairedScripts.missing []
  skipped := pairedScripts.skippedChanges []

private theorem plan_paired :
    Plan.make pairedScripts paired.home [] .up (.steps 2) = .ok pairedPlan :=
  Plan.make_up_eq_ok.mpr ⟨by simp, _, loadAll_paired, rfl⟩

/-- Two steps in one transaction come to what two runs by one step come to, audits included. -/
theorem move_steps_append_audited :
    ∃ first between second last,
      ((working .perPlan auditing).up (.steps 1)).run.run paired = (.ok first, between) ∧
      ((working .perPlan auditing).up (.steps 1)).run.run between = (.ok second, last) ∧
      last.database.log = ["a", "audit", "b", "audit"] ∧
      first.committed ++ second.committed = [⟨1⟩, ⟨2⟩] := by
  have hup : Ends ((working .perPlan auditing).up (.steps 2)) paired
      (fun report after => report.committed = [⟨1⟩, ⟨2⟩] ∧
        after.database.log = ["a", "audit", "b", "audit"]) (fun _ _ => False) := by
    rw [up, ends_runTarget_of_plan (by decide) rfl (scan_paired _ _) plan_paired]
    decide +kernel
  obtain ⟨whole, final, hrun, hcommitted, hlog⟩ := hup.exists_ok
  have hexecutes : (worker auditing).OnlyExecutes :=
    ⟨fun context => auditing context.change, fun _ _ => rfl,
      fun _ => HookWork.executes_executing _⟩
  have hhooks : (working .perPlan auditing).hooks.Stepwise .up "changelog" paired.home := {
    opening := rfl
    closing := rfl
    confined := fun slot hook _ hfind => find?_working hfind ▸ hexecutes.confined
    keeps := fun slot hook _ hfind => find?_working hfind ▸ hexecutes.keepsLedger
    unnumbered := fun slot hook _ hfind => find?_working hfind ▸ unnumbered_worker _ _ }
  obtain ⟨first, between, second, last, hfirst, hsecond, htimeless, hids⟩ :=
    @move_steps_append (working .perPlan auditing) paired .up whole final 1 1 Nat.one_pos
      Nat.one_pos rfl hrun hhooks
  refine ⟨first, between, second, last, hfirst, hsecond, ?_, hids.trans hcommitted⟩
  show last.database.timeless.log = _
  rw [htimeless]
  exact hlog

/-- The work of a hook that enters a row of its own into the ledger when the second script is
undone. -/
private def entering (change? : Option Change) : HookWork :=
  if change?.map Change.id = some ⟨2⟩ then
    .insert "changelog" (.pending ⟨9⟩ "entered") fun result => .finish (result.mapError .refused)
  else .finish (.ok ())

/-- The two scripts, the run lock of which cannot be given back. -/
private def jammed : World := { paired with database := { lockStuck := true } }

/-- The two scripts after both of them were applied. -/
private def settled : World :=
  { paired with
    database := {
      tables := [("changelog", (Table.empty.insert ((Change.pending ⟨1⟩ "a").stamped ⟨0, 0⟩)).insert
        ((Change.pending ⟨2⟩ "b").stamped ⟨0, 0⟩))] } }

private theorem aroundScripts_working (mode : TransactionMode) (work : Option Change → HookWork)
    (direction : Direction) (home : Home) :
    (working mode work).hooks.AroundScripts direction home where
  opening := rfl
  closing := rfl
  confined _ _ hfind := find?_working hfind ▸ ⟨fun context => work context.change,
    fun _ _ => rfl⟩
  unnumbered _ _ hfind := find?_working hfind ▸ unnumbered_worker work home

private theorem run_jammed :
    Ends (plain.up (.steps 2)) jammed (fun report _ => report.committed = [⟨1⟩, ⟨2⟩])
      (fun _ _ => False) := by
  have hscan : plain.folder.scan jammed.home = .ok pairedScripts := scan_paired .perScript auditing
  rw [up, ends_runTarget_of_plan (by decide) rfl hscan plan_paired]
  exact rfl

private theorem aroundScripts_plain (direction : Direction) (home : Home) :
    plain.hooks.AroundScripts direction home where
  opening := rfl
  closing := rfl
  confined _ _ hfind := nomatch hfind
  unnumbered _ _ hfind := nomatch hfind

/-- A run that cannot give the lock back keeps later runs out. -/
private theorem not_move_jammed {first second : Report} {between last : World}
    (hfirst : (plain.move .up (.steps 1)).run.run jammed =
      (.ok first, between)) :
    (plain.move .up (.steps 1)).run.run between ≠ (.ok second, last) := by
  intro hsecond
  obtain ⟨-, -, catalog, plan, onAbort, after, -, -, -, hplanned, rfl⟩ := run_move_eq_ok.mp hfirst
  obtain ⟨hfree, -⟩ := run_move_eq_ok.mp hsecond
  have hkeep := (aroundScripts_plain .up jammed.home).confined.keep
  have hsame := ((Runner.takes_run ordinary_keeps hkeep plan).ends_same _).of_ok hplanned
  rw [returned_of_stuck hsame.lockStuck] at hfree
  apply hfree
  rw [hsame.locks]
  exact mem_locks_taken _ _

private def settledRows : List Change := (working .perScript entering).rows settled

private theorem scan_settled :
    (working .perScript entering).folder.scan settled.home = .ok pairedScripts :=
  scan_paired _ _

/-- The plan for steps down from the ledger with both scripts. -/
private def settledPlan (scripts : List Script) : Plan where
  direction := .down
  scripts := scripts
  missing := pairedScripts.missing settledRows
  skipped := pairedScripts.skippedChanges settledRows

/-- Steps down are planned for the scripts of the last rows. -/
private theorem plan_settled {n : Nat} (hn : n ≠ 0) :
    Plan.make pairedScripts settled.home settledRows .down (.steps n) =
      .ok (settledPlan ([secondScript, firstScript].take n)) := by
  have hascending : settledRows.Pairwise (fun a b => a.id < b.id) := rows_ascending _ _
  have hids : (settledRows.reverse.take n).map Change.id =
      ([secondScript, firstScript].take n).map Script.id := by
    rw [List.map_take, List.map_take]
    rfl
  refine Plan.make_down_eq_ok.mpr ⟨by simpa using hn, [secondScript, firstScript].take n, ?_, rfl⟩
  rw [Catalog.selectDown_steps hascending]
  refine Catalog.loadApplied_of_load? hids fun script hmem => load_paired script ?_
  exact List.mem_reverse.mp (List.mem_of_mem_take hmem)

/-- Two steps down undo both scripts.  When only the second one is undone, the hook enters its row
all the same. -/
private theorem run_settled :
    Ends (((working .perScript entering).runner none).run
        (settledPlan [secondScript, firstScript]))
      (taken (working .perScript entering).settings.lockKey settled)
      (fun report _ => report.committed = [⟨2⟩, ⟨1⟩]) (fun _ _ => False) ∧
    Ends (((working .perScript entering).runner none).run (settledPlan [secondScript]))
      (taken (working .perScript entering).settings.lockKey settled)
      (fun _ after => (working .perScript entering).rows after =
        [(Change.pending ⟨1⟩ "a").stamped ⟨0, 0⟩, Change.pending ⟨9⟩ "entered"])
      (fun _ _ => False) := by decide +kernel

private theorem down_settled :
    ∃ report final, ((working .perScript entering).down (.steps 2)).run.run settled =
      (.ok report, final) := by
  obtain ⟨report, after, hrun, -⟩ := run_settled.1.exists_ok
  have hplan := @plan_settled 2 (by decide)
  exact ⟨report, _, run_move_eq_ok.mpr ⟨by decide, rfl, pairedScripts, _, none, after, scan_settled,
    hplan, rfl, hrun, rfl⟩⟩

/-- The row that the hook entered is the last one, and there is no script for it. -/
private theorem not_move_settled {first second : Report} {between last : World}
    (hfirst : ((working .perScript entering).move .down (.steps 1)).run.run settled =
      (.ok first, between)) :
    ((working .perScript entering).move .down (.steps 1)).run.run between ≠
      (.ok second, last) := by
  intro hsecond
  obtain ⟨-, -, catalog, plan, onAbort, after, hscan, hplan, habort, hplanned, rfl⟩ :=
    run_move_eq_ok.mp hfirst
  obtain ⟨-, -, found, again, -, -, hfound, hagain, -⟩ := run_move_eq_ok.mp hsecond
  have hkeep := (aroundScripts_working .perScript entering .down settled.home).confined.keep
  have hsame := ((Runner.takes_run ordinary_keeps hkeep plan).ends_same _).of_ok hplanned
  -- what the first run reads is known
  obtain rfl : pairedScripts = catalog := Except.ok.inj (scan_settled.symm.trans hscan)
  obtain rfl : none = onAbort := Except.ok.inj habort
  have hexpected := @plan_settled 1 (by decide)
  rw [Except.ok.inj (hplan.symm.trans hexpected)] at hplanned
  -- and so is what the second run reads
  rw [home_returned, hsame.home] at hfound hagain
  obtain rfl : pairedScripts = found := Except.ok.inj (scan_settled.symm.trans hfound)
  obtain ⟨-, scripts, hload, -⟩ := Plan.make_down_eq_ok.mp hagain
  rw [Catalog.selectDown_steps (rows_ascending _ _), rows_returned,
    run_settled.2.of_ok hplanned] at hload
  obtain ⟨script?, hscript, hload⟩ := bind_eq_ok.mp hload
  obtain rfl : none = script? :=
    Except.ok.inj ((Catalog.load?_of_notMem (by decide)).symm.trans hscript)
  cases hload

/-- Where the lock cannot be given back, or where hooks enter rows into the ledger, two runs by one
step each do not come to what one run by two steps comes to, although the hooks are around scripts
only: the second one fails. -/
theorem move_steps_append_fails :
    (plain.hooks.AroundScripts .up jammed.home ∧
      (∃ report final, (plain.up (.steps 2)).run.run jammed =
        (.ok report, final)) ∧
      ∀ first between second last,
        (plain.up (.steps 1)).run.run jammed = (.ok first, between) →
        (plain.up (.steps 1)).run.run between ≠ (.ok second, last)) ∧
    ((working .perScript entering).hooks.AroundScripts .down settled.home ∧
      (∃ report final, ((working .perScript entering).down (.steps 2)).run.run settled =
        (.ok report, final)) ∧
      ∀ first between second last,
        ((working .perScript entering).down (.steps 1)).run.run settled = (.ok first, between) →
        ((working .perScript entering).down (.steps 1)).run.run between ≠ (.ok second, last)) := by
  obtain ⟨report, final, hup, -⟩ := run_jammed.exists_ok
  exact ⟨⟨aroundScripts_plain _ _, ⟨report, final, hup⟩, fun _ _ _ _ => not_move_jammed⟩,
    aroundScripts_working _ _ _ _, down_settled, fun _ _ _ _ => not_move_settled⟩

end Migrator

end Migrations

import Migrations.Proofs.Migrator.Planning
import Migrations.Proofs.Run.PerPlan

/-!
# Runs that Were Interrupted

Runs upwards without hooks and without an abort script go on where the ones before them stopped.
However many of them fail, and whatever the database refuses meanwhile, what they leave is what a
single run leaves up to some script of the plan; so the first run that nothing interrupts comes to
the end that a single run would have come to.

## Main statements

- `Runner.ends_run_applies`: a run leaves a first part of its scripts, in either mode.
- `Migrator.advanced_of_attempts`: and so do any number of attempts.
- `Migrator.up_converges`: the next run that nothing interrupts completes them.
-/

namespace Migrations

open Attempt RunLock

/-! ## One run -/

theorem Hooks.onlyExecute_of_none {hooks : Hooks} (h : ∀ slot, hooks.find? slot = none) :
    hooks.OnlyExecute := by
  intro slot hook hfind
  rw [h] at hfind
  cases hfind

theorem Hooks.keepLedger_of_none {hooks : Hooks} (h : ∀ slot, hooks.find? slot = none)
    (table : String) : hooks.KeepLedger table := by
  intro slot hook hfind
  rw [h] at hfind
  cases hfind

/-- The statements that apply scripts, in order. -/
def StatementRules.ofScripts (rules : StatementRules) (scripts : List Script) : List String :=
  scripts.flatMap fun script => rules.statements script.up

namespace Runner

variable {runner : Runner} {plan : Plan} {world : World}

/-- The scripts were applied, and nothing else happened. -/
structure Applies (runner : Runner) (scripts : List Script) (before after : World) : Prop where
  circumstances : before.SameCircumstances after
  ids : ∀ id, id ∈ runner.ids after ↔ id ∈ runner.ids before ∨ id ∈ scripts.map Script.id
  log : after.database.log = before.database.log ++ runner.rules.ofScripts scripts

theorem Applies.nothing (runner : Runner) (world : World) : runner.Applies [] world world where
  circumstances := .refl world
  ids := fun id => by simp
  log := (List.append_nil _).symm

/-- Making the ledger's table comes to nothing. -/
theorem Applies.of_start {scripts : List Script} {after : World}
    (h : runner.Applies scripts (runner.start plan world) after) :
    runner.Applies scripts world after where
  circumstances := (sameCircumstances_start runner plan world).trans h.circumstances
  ids := by
    have hids : runner.ids (runner.start plan world) = runner.ids world := by
      rw [← map_id_seen, rowsOf_start, map_id_seen]
    rw [← hids]
    exact h.ids
  log := by
    have hlog : (runner.start plan world).database.log = world.database.log := by
      unfold start
      split
      · rw [Database.createTable_eq]
      · rfl
    rw [← hlog]
    exact h.log

theorem Effect.applies {scripts : List Script} {statements : List String} {before after : World}
    (h : runner.Effect .up scripts statements before after)
    (hstatements : statements = runner.rules.ofScripts scripts) :
    runner.Applies scripts before after :=
  ⟨h.circumstances, h.ledger.moves, hstatements ▸ h.log⟩

section NoHooks

variable (hnone : ∀ slot, runner.hooks.find? slot = none)

include hnone

theorem hookStatements_of_none (slot : HookSlot) (change? : Option (Change × Nat)) :
    runner.hookStatements slot change? world = [] := by
  simp [hookStatements, hookOutcome, hnone]

theorem runStatements_of_none (first : Nat) (scripts : List Script) :
    runner.runStatements .up world first scripts = runner.rules.ofScripts scripts := by
  induction scripts generalizing first with
  | nil => rfl
  | cons script rest ih =>
    have hscript : runner.scriptStatements .up world (script, first) =
        runner.rules.statements script.up := by
      simp [scriptStatements, hookStatements_of_none hnone, Script.text]
    rw [runStatements_cons, ih, hscript]
    rfl

/-- In either mode a run leaves a first part of its scripts, and all of them when it succeeds. -/
theorem ends_runMode_applies (hup : plan.direction = .up) :
    Ends (runner.runMode plan) (runner.start plan world)
      (fun _ after => runner.Applies plan.scripts world after)
      (fun _ after => ∃ done rest, plan.scripts = done ++ rest ∧
        runner.Applies done world after) := by
  have hhooks := Hooks.onlyExecute_of_none hnone
  -- what is left of the scripts is all that is left
  have hprogress : ∀ {done rest : List Script} {closing : List String} {outcomes : List Outcome}
      {after : World}, closing = [] →
      runner.Progress plan world done rest closing outcomes after →
        runner.Applies done world after := by
    intro done rest closing outcomes after hclosing h
    refine (Effect.applies (hup ▸ h.effect) ?_).of_start
    rw [hclosing, hookStatements_of_none hnone, runStatements_of_none hnone,
      List.append_nil, List.nil_append]
  have hafter := @hookStatements_of_none runner world hnone (.after plan.direction) none
  unfold runMode
  split
  · refine (ends_runPerScript hhooks).mono (fun _ _ h => hprogress hafter h)
      fun _ _ h => ?_
    obtain ⟨done, rest, h⟩ := h
    exact ⟨done, rest, h.scripts, hprogress rfl h⟩
  · refine (ends_runPerPlan hhooks).mono (fun _ _ h => hprogress hafter h) fun _ after h => ?_
    exact ⟨[], plan.scripts, rfl, (Effect.applies (hup ▸ h.2) rfl).of_start⟩

/-- A run without an abort script leaves a first part of its scripts, and all of them when it
succeeds. -/
theorem ends_run_applies (hup : plan.direction = .up) (habort : runner.onAbort = none) :
    Ends (runner.run plan) world
      (fun _ after => runner.Applies plan.scripts world after)
      (fun _ after => ∃ done rest, plan.scripts = done ++ rest ∧
        runner.Applies done world after) := by
  have hsame : ∀ after : World,
      (if plan.direction.isUp then (runner.abort.run after).2 else after) = after := by
    intro after
    split
    · unfold abort
      rw [habort]
      rfl
    · rfl
  rw [ends_run]
  simp only [hsame]
  split
  · rename_i hidle
    rw [List.isEmpty_iff.mp hidle]
    exact .nothing runner world
  · rw [ends_runScripts]
    split
    · exact ⟨[], plan.scripts, rfl, .nothing runner world⟩
    · exact ends_runMode_applies hnone hup

end NoHooks

end Runner

/-! ## Attempts -/

/-- Files, tables and log are the same; everything else about the world can differ. -/
structure World.SameStore (before after : World) : Prop where
  home : after.home = before.home
  tables : after.database.tables = before.database.tables
  log : after.database.log = before.database.log

namespace Migrator

variable {migrator : Migrator} {world now : World}

/-- The worlds that runs upwards can lead to, whether they succeed or fail.  Between two of them
the circumstances can change in any way: what fails, whether the database can be reached, who holds
the lock and what time it is. -/
inductive Attempts (migrator : Migrator) (world : World) : World → Prop where
  | start : Attempts migrator world world
  | change {now next : World} (past : Attempts migrator world now) (h : now.SameStore next) :
    Attempts migrator world next
  | up {now : World} (past : Attempts migrator world now) (target : Target) :
    Attempts migrator world ((migrator.up target).run.run now).2

/-- Compared with a world before, the scripts were applied and nothing else. -/
structure Advanced (migrator : Migrator) (world : World) (done : List Script) (now : World) :
    Prop where
  home : now.home = world.home
  ids : ∀ id, id ∈ migrator.appliedIds now ↔
    id ∈ migrator.appliedIds world ∨ id ∈ done.map Script.id
  log : now.database.log = world.database.log ++
    migrator.settings.statementRules.ofScripts done

namespace Advanced

variable {done more : List Script}

theorem nothing (migrator : Migrator) (world : World) : migrator.Advanced world [] world where
  home := rfl
  ids := fun id => by simp
  log := (List.append_nil _).symm

theorem sameStore {next : World} (h : migrator.Advanced world done now)
    (hsame : now.SameStore next) : migrator.Advanced world done next where
  home := hsame.home.trans h.home
  ids := by
    have hids : migrator.appliedIds next = migrator.appliedIds now :=
      appliedIds_congr (by rw [Database.table?, Database.table?, hsame.tables])
    rw [hids]
    exact h.ids
  log := hsame.log.trans h.log

theorem applies {onAbort : Option String} {next : World} (h : migrator.Advanced world done now)
    (happlies : (migrator.runner onAbort).Applies more now next) :
    migrator.Advanced world (done ++ more) next where
  home := happlies.circumstances.home.trans h.home
  ids := by
    intro id
    have hnext : id ∈ migrator.appliedIds next ↔
        id ∈ migrator.appliedIds now ∨ id ∈ more.map Script.id := happlies.ids id
    rw [hnext, h.ids id, List.map_append, List.mem_append, or_assoc]
  log := by
    have hlog : next.database.log = now.database.log ++
        migrator.settings.statementRules.ofScripts more := happlies.log
    rw [hlog, h.log, StatementRules.ofScripts, StatementRules.ofScripts,
      StatementRules.ofScripts, List.flatMap_append, List.append_assoc]

end Advanced

theorem sameStore_taken (key : Int64) (world : World) : world.SameStore (taken key world) := by
  rw [taken_eq]
  exact ⟨rfl, rfl, rfl⟩

theorem sameStore_returned (key : Int64) (world : World) :
    world.SameStore (returned key world) := by
  rw [returned_eq]
  exact ⟨rfl, rfl, rfl⟩

/-- A run upwards without hooks and abort script applies a first part of its scripts, and all of
them when it succeeds. -/
theorem ends_runPlan_applies {plan : Plan} (hnone : ∀ slot, migrator.hooks.find? slot = none)
    (habort : migrator.folder.onAbort? world.home = .ok none) (hup : plan.direction = .up) :
    Ends (migrator.runPlan plan) world
      (fun _ after => (migrator.runner none).Applies plan.scripts world after)
      (fun _ after => ∃ done rest, plan.scripts = done ++ rest ∧
        (migrator.runner none).Applies done world after) := by
  rw [ends_runPlan, habort]
  exact Runner.ends_run_applies hnone hup rfl

/-! ## What is left to do -/

section Pending

variable {catalog : Catalog} {scripts done rest : List Script}
  (hscan : migrator.folder.scan world.home = .ok catalog)
  (hpending : catalog.loadAll world.home (catalog.pendingEntries (migrator.rows world)) =
    .ok scripts)

include hscan hpending

/-- When a first part of the pending scripts is applied, the rest of them is pending. -/
theorem Advanced.loadAll_rest (h : migrator.Advanced world done now)
    (hscripts : scripts = done ++ rest) :
    catalog.loadAll now.home (catalog.pendingEntries (migrator.rows now)) = .ok rest := by
  obtain ⟨first, second, hentries, hfirst, hsecond⟩ :=
    Catalog.loadAll_eq_append (hscripts ▸ hpending)
  have hfiles := ScriptFolder.onFiles_scan hscan
  have hids : done.map Script.id = first.map ScriptEntry.id := by
    refine Catalog.loadAll_ids (fun entry hmem => hfiles entry ?_) hfirst
    have hmem' : entry ∈ catalog.pendingEntries (migrator.rows world) :=
      hentries ▸ List.mem_append_left _ hmem
    exact (Catalog.mem_pendingEntries.mp hmem').1
  have hrest : catalog.pendingEntries (migrator.rows now) = second := by
    refine Catalog.pendingEntries_rest hentries fun id => ?_
    rw [← hids]
    exact h.ids id
  rw [hrest, h.home]
  exact hsecond

/-- A plan upwards has a first part of the scripts that are left. -/
theorem Advanced.plan_first (h : migrator.Advanced world done now)
    (hscripts : scripts = done ++ rest) {target : Target} {plan : Plan}
    (hplan : Plan.make catalog now.home (migrator.rows now) .up target = .ok plan) :
    plan.direction = .up ∧ ∃ others, rest = plan.scripts ++ others := by
  have hrest := h.loadAll_rest hscan hpending hscripts
  obtain ⟨-, selected, hselected, rfl⟩ := Plan.make_up_eq_ok.mp hplan
  obtain ⟨others, hentries⟩ := @Catalog.selectUp_first catalog (migrator.rows now) target
  rw [← hentries] at hrest
  obtain ⟨first, second, rfl, hfirst, -⟩ := Catalog.loadAll_append hrest
  rw [hselected] at hfirst
  exact ⟨rfl, second, by rw [Except.ok.inj hfirst]⟩

/-- The plan for all that is pending has the scripts that are left. -/
theorem Advanced.plan_latest (h : migrator.Advanced world done now)
    (hscripts : scripts = done ++ rest) :
    ∃ plan, Plan.make catalog now.home (migrator.rows now) .up .latest = .ok plan ∧
      plan.direction = .up ∧ plan.scripts = rest := by
  refine ⟨⟨.up, rest, _, _⟩, Plan.make_up_eq_ok.mpr ⟨by simp, rest, ?_, rfl⟩, rfl, rfl⟩
  rw [Catalog.selectUp_latest]
  exact h.loadAll_rest hscan hpending hscripts

/-- When everything is applied, another run changes nothing. -/
theorem ends_up_completed (habort : migrator.folder.onAbort? world.home = .ok none)
    (h : migrator.Advanced world scripts now) (hnow : migrator.Undisturbed now) :
    Ends (migrator.up .latest) now
      (fun report after => report.outcomes = [] ∧ after = now) (fun _ _ => False) := by
  obtain ⟨plan, hplan, -, hrest⟩ := h.plan_latest hscan hpending (List.append_nil scripts).symm
  have habort' :
      migrator.folder.onAbort? (taken migrator.settings.lockKey now).home = .ok none := by
    rw [home_taken, h.home, habort]
  rw [up, ends_runTarget_of_plan hnow.free hnow.reach (h.home ▸ hscan) hplan,
    ends_runPlan_idle habort' hrest]
  exact ⟨rfl, returned_taken hnow.free hnow.returnable⟩

section NoHooks

variable (hnone : ∀ slot, migrator.hooks.find? slot = none)
  (habort : migrator.folder.onAbort? world.home = .ok none)

include hnone habort

/-- A run upwards applies a first part of what is left, whether it succeeds or fails. -/
theorem ends_up_advanced (h : migrator.Advanced world done now) (hscripts : scripts = done ++ rest)
    (target : Target) :
    Ends (migrator.up target) now
      (fun _ after => ∃ more others, rest = more ++ others ∧
        migrator.Advanced world (done ++ more) after)
      (fun _ after => ∃ more others, rest = more ++ others ∧
        migrator.Advanced world (done ++ more) after) := by
  have hnothing : ∀ {after : World}, migrator.Advanced world done after →
      ∃ more others, rest = more ++ others ∧ migrator.Advanced world (done ++ more) after :=
    fun h => ⟨[], rest, rfl, (List.append_nil done).symm ▸ h⟩
  by_cases hheld : migrator.settings.lockKey ∈ now.database.locks
  · rw [up, underLock, RunLock.ends_holding, if_pos (List.contains_iff_mem.mpr hheld)]
    exact hnothing h
  · have htaken := h.sameStore (sameStore_taken migrator.settings.lockKey now)
    rw [up, ends_underLock hheld, runTarget, ends_bind, plan, ends_planBy, htaken.home, hscan]
    dsimp only
    split
    · exact hnothing (htaken.sameStore (sameStore_returned _ _))
    · split
      · rename_i plan hplan
        rw [← htaken.home] at hplan
        obtain ⟨hup, others, hrest⟩ := htaken.plan_first hscan hpending hscripts hplan
        refine (ends_runPlan_applies hnone (htaken.home ▸ habort) hup).mono
          (fun _ after happlies => ?_) fun _ after hpart => ?_
        · exact ⟨plan.scripts, others, hrest,
            (htaken.applies happlies).sameStore (sameStore_returned _ _)⟩
        · obtain ⟨part, left, hplanned, happlies⟩ := hpart
          exact ⟨part, left ++ others, by rw [hrest, hplanned, List.append_assoc],
            (htaken.applies happlies).sameStore (sameStore_returned _ _)⟩
      · exact hnothing (htaken.sameStore (sameStore_returned _ _))

/-- Any number of attempts has applied a first part of the pending scripts. -/
theorem advanced_of_attempts (h : migrator.Attempts world now) :
    ∃ done rest, scripts = done ++ rest ∧ migrator.Advanced world done now := by
  induction h with
  | start => exact ⟨[], scripts, rfl, .nothing migrator world⟩
  | change past hsame ih =>
    obtain ⟨done, rest, hscripts, hadvanced⟩ := ih
    exact ⟨done, rest, hscripts, hadvanced.sameStore hsame⟩
  | up past target ih =>
    obtain ⟨done, rest, hscripts, hadvanced⟩ := ih
    obtain ⟨more, others, hrest, hnext⟩ :=
      (ends_up_advanced hscan hpending hnone habort hadvanced hscripts target).always
    exact ⟨done ++ more, others, by rw [hscripts, hrest, List.append_assoc], hnext⟩

/-- A run that nothing can interrupt applies all that is left. -/
theorem ends_up_completes (h : migrator.Advanced world done now) (hscripts : scripts = done ++ rest)
    (hnow : migrator.Undisturbed now) (hclear : now.database.failures = []) :
    Ends (migrator.up .latest) now
      (fun _ after => migrator.Advanced world scripts after ∧ migrator.Undisturbed after)
      (fun _ _ => False) := by
  have htaken := h.sameStore (sameStore_taken migrator.settings.lockKey now)
  obtain ⟨plan, hplan, hup, hrest⟩ := h.plan_latest hscan hpending hscripts
  have hsuits := Plan.suits_make (ScriptFolder.onFiles_scan hscan)
    (migrator.nodup_appliedIds now) hplan
  have hready : (migrator.runner none).Ready plan.direction plan.scripts {}
      ((migrator.runner none).start plan (taken migrator.settings.lockKey now)) := by
    rw [hup]
    refine .up hup ?_
    show plan.Suits (migrator.appliedIds (taken migrator.settings.lockKey now))
    rw [appliedIds_congr (table?_taken _ now _)]
    exact hsuits
  have habort' :
      migrator.folder.onAbort? (taken migrator.settings.lockKey now).home = .ok none := by
    rw [htaken.home, habort]
  rw [up, ends_runTarget_of_plan hnow.free hnow.reach (h.home ▸ hscan) hplan]
  have hends := (ends_runPlan_applies hnone habort' hup).and
    (ends_runPlan_ready (Hooks.keepLedger_of_none hnone _) habort' hready)
  refine hends.mono (fun _ after happlied => ?_) fun failure after hfailed => ?_
  · have hcircumstances := happlied.1.circumstances
    have hstuck : after.database.lockStuck = false := by
      rw [hcircumstances.lockStuck, lockStuck_taken, hnow.returnable]
    have hadvanced := (htaken.applies happlied.1).sameStore
      (sameStore_returned migrator.settings.lockKey _)
    rw [hrest, ← hscripts] at hadvanced
    refine ⟨hadvanced, free_returned hstuck, ?_, ?_⟩
    · rw [lockStuck_returned, hstuck]
    · rw [unreachable_returned, hcircumstances.unreachable, unreachable_taken, hnow.reach]
  -- there is nothing that could have made it fail
  · obtain ⟨⟨_, _, _, hpart⟩, hinterrupts⟩ := hfailed
    refine Failure.not_interrupts hnone ?_ ?_ hinterrupts
    · rw [hpart.circumstances.failures, failures_taken, hclear]
    · rw [hpart.circumstances.unreachable, unreachable_taken, hnow.reach]

end NoHooks

end Pending

/-- Runs upwards that were interrupted converge.  After any number of attempts, the next run that
nothing interrupts succeeds; then the ledger has the changes that it had before all of them and
those of all scripts, and the statements that were added to the log are those that a single run
would have added from the beginning.  Another run does nothing. -/
theorem up_converges {catalog : Catalog} {start : World}
    (hnone : ∀ slot, migrator.hooks.find? slot = none)
    (hscan : migrator.folder.scan world.home = .ok catalog)
    (hload : ∀ entry ∈ catalog.entries, ∃ script, catalog.load world.home entry = .ok script)
    (habort : migrator.folder.onAbort? world.home = .ok none)
    (hattempts : migrator.Attempts world now) (hnow : migrator.Undisturbed now)
    (hclear : now.database.failures = []) (hsame : world.SameStore start)
    (hstart : migrator.Undisturbed start) (hstartClear : start.database.failures = []) :
    ∃ last final alone once added again,
      (migrator.up .latest).run.run now = (.ok last, final) ∧
      (migrator.up .latest).run.run start = (.ok alone, once) ∧
      (∀ id, id ∈ migrator.appliedIds final ↔
        id ∈ migrator.appliedIds world ∨ id ∈ catalog.ids) ∧
      final.database.log = world.database.log ++ added ∧
      once.database.log = start.database.log ++ added ∧
      (migrator.up .latest).run.run final = (.ok again, final) ∧ again.outcomes = [] := by
  obtain ⟨scripts, hpending⟩ := Catalog.exists_loadAll fun entry hmem =>
    hload entry (Catalog.mem_pendingEntries.mp hmem).1
  obtain ⟨done, rest, hscripts, hadvanced⟩ :=
    advanced_of_attempts hscan hpending hnone habort hattempts
  obtain ⟨last, final, hlast, hfinal, hquiet⟩ := (ends_up_completes hscan hpending hnone habort
    hadvanced hscripts hnow hclear).exists_ok
  obtain ⟨alone, once, halone, honce, -⟩ := (ends_up_completes hscan hpending hnone habort
    ((Advanced.nothing migrator world).sameStore hsame) (List.nil_append scripts).symm hstart
    hstartClear).exists_ok
  obtain ⟨again, _, hagain, hidle, rfl⟩ :=
    (ends_up_completed hscan hpending habort hfinal hquiet).exists_ok
  refine ⟨last, _, alone, once, _, again, hlast, halone, fun id => ?_, hfinal.log,
    hsame.log ▸ honce.log, hagain, hidle⟩
  rw [hfinal.ids id, mem_pending_ids hscan hpending id]
  by_cases happlied : id ∈ migrator.appliedIds world
  · simp only [happlied, true_or]
  · simp only [happlied, false_or, not_false_iff, and_true]

/-- A world with two scripts, both of them pending. -/
private def smooth : World where
  home := ⟨[(["scripts"], .folder),
    (["scripts", "1_a.sql"], .file "create a;".toUTF8 false),
    (["scripts", "2_b.sql"], .file "create b;".toUTF8 false)]⟩

/-- The same world while the second script cannot be executed. -/
private def rough : World := { smooth with database := { failures := ["b"] } }

private def smoothScripts : Catalog where
  entries := [⟨⟨1⟩, "a", "1_a.sql", .file ⟨"scripts/1_a.sql"⟩⟩,
    ⟨⟨2⟩, "b", "2_b.sql", .file ⟨"scripts/2_b.sql"⟩⟩]
  ascending := by decide

private theorem scan_smooth : plain.folder.scan smooth.home = .ok smoothScripts :=
  ScriptFolder.scan_of_ascending (by rfl) (by rfl) (by rfl) smoothScripts.ascending

private theorem plan_smooth : Plan.make smoothScripts smooth.home [] .up .latest =
    .ok ⟨.up, [⟨⟨1⟩, "a", "1_a.sql", "create a;\n", none⟩,
      ⟨⟨2⟩, "b", "2_b.sql", "create b;\n", none⟩], [], []⟩ := eq_ok_of_toOption (by decide +kernel)

/-- The first attempt stops after one script, and the next one goes on with the other. -/
theorem up_converges_rough :
    let stopped := ((plain.up .latest).run.run rough).2
    let cleared := { stopped with database := { stopped.database with failures := [] } }
    stopped.database.log = ["create a"] ∧ ∃ last final,
      (plain.up .latest).run.run cleared = (.ok last, final) ∧
        final.database.log = ["create a", "create b"] := by
  intro stopped cleared
  have hscan : plain.folder.scan rough.home = .ok smoothScripts := scan_smooth
  have hfailed : Ends (plain.up .latest) rough
      (fun _ after => after.database.log = ["create a"] ∧ plain.Undisturbed after)
      (fun _ after => after.database.log = ["create a"] ∧ plain.Undisturbed after) := by
    rw [up, ends_runTarget_of_plan (by decide) rfl hscan plan_smooth]
    exact ⟨rfl, by decide, rfl, rfl⟩
  obtain ⟨hlog, hfree, hreturnable, hreach⟩ := hfailed.always
  have hattempts : plain.Attempts rough cleared :=
    (Attempts.start.up .latest).change ⟨rfl, rfl, rfl⟩
  have hload : ∀ entry ∈ smoothScripts.entries, ∃ script,
      smoothScripts.load rough.home entry = .ok script :=
    List.forall_mem_cons.mpr ⟨⟨_, eq_ok_of_toOption (by rfl)⟩,
      List.forall_mem_singleton.mpr ⟨_, eq_ok_of_toOption (by rfl)⟩⟩
  obtain ⟨last, final, alone, once, added, again, hlast, honce, -, hfinal, hadded, -⟩ :=
    @up_converges plain rough cleared smoothScripts smooth (fun _ => rfl) hscan hload rfl hattempts
      ⟨hfree, hreturnable, hreach⟩ rfl ⟨rfl, rfl, rfl⟩
      ⟨by decide, rfl, rfl⟩ rfl
  -- what a single run adds tells what was added altogether
  have hsingle : Ends (plain.up .latest) smooth
      (fun _ after => after.database.log = ["create a", "create b"]) (fun _ _ => False) := by
    rw [up, ends_runTarget_of_plan (by decide) rfl scan_smooth plan_smooth]
    rfl
  refine ⟨hlog, last, final, hlast, ?_⟩
  rw [hfinal, ← hsingle.of_ok honce, hadded]
  rfl

end Migrator

end Migrations

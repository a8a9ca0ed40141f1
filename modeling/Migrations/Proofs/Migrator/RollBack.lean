import Migrations.Proofs.Migrator.Planning

/-!
# Rolling Back

A run upwards that skips nothing puts its rows after all others, so the same number of steps down,
or the way down to its first script, undoes just its scripts, the last one first, and leaves the
rows that were there before.

## Main statements

- `Runner.Recorded.append_new`: the rows of a run that skips nothing come last.
- `Plan.make_down_last`: the way back over the last rows is planned for their scripts.
- `Migrator.down_restores_up`: what the way back leaves.
-/

namespace Migrations

open Attempt RunLock

/-! ## Rows at the end of the ledger -/

namespace Runner

/-- Applied scripts in order, all of them later than the rows that were there, have the last rows
of the ledger. -/
theorem Recorded.append_new {scripts : List Script} {before after : Option Table}
    (h : Recorded .up scripts before after)
    (hscripts : (scripts.map Script.id).Pairwise (· < ·))
    (hlater : ∀ id ∈ scripts.map Script.id, ∀ row ∈ Table.rowsOf before, row.id < id) :
    ∃ new, Table.rowsOf after = Table.rowsOf before ++ new ∧
      new.map Change.id = scripts.map Script.id := by
  obtain ⟨times, hlength, hperm⟩ := h.2
  have hids := map_id_stamped hlength
  refine ⟨_, ?_, hids⟩
  -- both lists hold the same rows in ascending order
  have hascending : (Table.rowsOf after).Pairwise (fun a b => a.id < b.id) := Table.ascending _
  have hjoined : (Table.rowsOf before ++
      List.zipWith (fun script time => script.change.stamped time) scripts times).Pairwise
      (fun a b => a.id < b.id) := by
    refine List.pairwise_append.mpr ⟨Table.ascending _, ?_, fun row hrow other hother => ?_⟩
    · refine List.pairwise_map.mp ?_
      rw [hids]
      exact hscripts
    · refine hlater other.id ?_ row hrow
      rw [← hids]
      exact List.mem_map_of_mem hother
  refine hperm.eq_of_pairwise (fun a b ha hb hab hba => ?_) hascending hjoined
  exact absurd hba (ChangeId.not_lt.mpr (ChangeId.le_of_lt hab))

end Runner

/-! ## The same scripts -/

/-- The folder has the same scripts in another home. -/
structure ScriptFolder.SameScripts (folder : ScriptFolder) (home other : Home) : Prop where
  scan : folder.scan other = folder.scan home
  load : ∀ catalog, folder.scan home = .ok catalog → ∀ entry ∈ catalog.entries,
    catalog.load other entry = catalog.load home entry
  onAbort : folder.onAbort? other = folder.onAbort? home

theorem ScriptFolder.SameScripts.load? {folder : ScriptFolder} {home other : Home}
    {catalog : Catalog} (h : folder.SameScripts home other) (hscan : folder.scan home = .ok catalog)
    (id : ChangeId) : catalog.load? other id = catalog.load? home id := by
  unfold Catalog.load?
  cases hfind : catalog.find? id with
  | none => rfl
  | some entry =>
    dsimp only
    rw [h.load catalog hscan entry (Catalog.find?_eq_some.mp hfind).1]

/-- The way back that reaches the last rows of the ledger undoes their scripts, the last one
first. -/
theorem Plan.make_down_last {catalog : Catalog} {home : Home} {before new : List Change}
    {scripts : List Script} {first : ChangeId} {back : Target}
    (hascending : (before ++ new).Pairwise (fun a b => a.id < b.id))
    (hids : new.map Change.id = scripts.map Script.id)
    (hfirst : (new.map Change.id).head? = some first)
    (hback : back = .steps new.length ∨ back = .through first)
    (hload : ∀ script ∈ scripts, catalog.load? home script.id = .ok (some script)) :
    make catalog home (before ++ new) .down back =
      .ok ⟨.down, scripts.reverse, catalog.missing (before ++ new),
        catalog.skippedChanges (before ++ new)⟩ := by
  have hsome : new ≠ [] := by
    rintro rfl
    cases hfirst
  have hsteps : back ≠ .steps 0 := by
    rcases hback with rfl | rfl
    · simp [hsome]
    · simp
  have hselected := Catalog.selectDown_append hascending hfirst hback
  have happlied : catalog.loadApplied home new.reverse = .ok scripts.reverse := by
    refine Catalog.loadApplied_of_load? ?_ fun script hmem => ?_
    · rw [List.map_reverse, hids, List.map_reverse]
    · exact hload script (List.mem_reverse.mp hmem)
  exact Plan.make_down_eq_ok.mpr ⟨hsteps, scripts.reverse, hselected ▸ happlied, rfl⟩

/-! ## There and back -/

namespace Migrator

variable {migrator : Migrator} {world : World}

/-- A run that skips nothing adds its rows at the end of the ledger, and its scripts are found
again by their ids. -/
theorem ends_up_appended {catalog : Catalog} {target : Target}
    (hhooks : migrator.hooks.KeepLedger migrator.settings.changelogTable)
    (hscan : migrator.folder.scan world.home = .ok catalog)
    (hskipped : catalog.skippedChanges (migrator.rows world) = []) :
    Ends (migrator.up target) world
      (fun report after => ∃ (scripts : List Script) (new : List Change),
        report.committed = scripts.map Script.id ∧
        migrator.rows after = migrator.rows world ++ new ∧
        new.map Change.id = scripts.map Script.id ∧
        (∀ script ∈ scripts, catalog.load? world.home script.id = .ok (some script)) ∧
        ∃ onAbort, migrator.folder.onAbort? world.home = .ok onAbort)
      (fun _ _ => True) := by
  refine (ends_up_recorded hhooks).mono (fun report after h => ?_) fun _ _ _ => trivial
  obtain ⟨found, plan, hfound, hplan, hcommitted, habort, base, hbase, hrecorded⟩ := h
  obtain rfl : catalog = found := Except.ok.inj (hscan.symm.trans hfound)
  have hfiles := ScriptFolder.onFiles_scan hscan
  obtain ⟨-, hids⟩ := Plan.ids_make_up hfiles hplan
  obtain ⟨-, scripts, hload, rfl⟩ := Plan.make_up_eq_ok.mp hplan
  have hselected := Catalog.selectUp_sublist catalog (migrator.rows world) target
  have hentries : ∀ entry ∈ catalog.selectUp (migrator.rows world) target,
      entry ∈ catalog.entries := fun entry hentry =>
    (Catalog.mem_pendingEntries.mp (hselected.subset hentry)).1
  -- the scripts come in the order of the catalog, and after the whole ledger
  have hascending : (scripts.map Script.id).Pairwise (· < ·) := by
    have hentries := Catalog.pendingEntries_ascending.sublist hselected
    rw [show scripts.map Script.id = _ from hids]
    exact List.pairwise_map.mpr hentries
  have hlater : ∀ id ∈ scripts.map Script.id, ∀ row ∈ Table.rowsOf base, row.id < id := by
    intro id hid row hrow
    rw [show scripts.map Script.id = _ from hids] at hid
    obtain ⟨entry, hentry, rfl⟩ := List.mem_map.mp hid
    rw [hbase] at hrow
    exact Catalog.skippedChanges_eq_nil hskipped entry (hselected.subset hentry) row.id
      (List.mem_map_of_mem hrow)
  obtain ⟨new, hnew, hnewIds⟩ := Runner.Recorded.append_new hrecorded hascending hlater
  refine ⟨scripts, new, hcommitted, ?_, hnewIds,
    Catalog.load?_of_loadAll hfiles hentries hload, habort⟩
  rw [← hbase]
  exact hnew

/-- A run upwards that skips nothing and commits scripts, all of which can be undone, is undone by
as many steps down as it committed scripts, or by the way down to the first of them: unless that is
interrupted, it undoes these scripts in the opposite order, and the rows are those from before. -/
theorem down_restores_up {catalog : Catalog} {target back : Target} {report : Report}
    {first : ChangeId} {after later : World}
    (hhooks : migrator.hooks.KeepLedger migrator.settings.changelogTable)
    (hscan : migrator.folder.scan world.home = .ok catalog)
    (hskipped : catalog.skippedChanges (migrator.rows world) = [])
    (hup : (migrator.up target).run.run world = (.ok report, after))
    (hfirst : report.committed.head? = some first)
    (hundo : ∀ id ∈ report.committed, ∃ script,
      catalog.load? world.home id = .ok (some script) ∧ script.isReversible)
    (hledger : later.database.table? migrator.settings.changelogTable =
      after.database.table? migrator.settings.changelogTable)
    (hscripts : migrator.folder.SameScripts world.home later.home)
    (hfree : migrator.settings.lockKey ∉ later.database.locks)
    (hreach : later.database.unreachable = false)
    (hback : back = .steps report.committed.length ∨ back = .through first) :
    Ends (migrator.down back) later
      (fun undone final => undone.committed = report.committed.reverse ∧
        migrator.rows final = migrator.rows world)
      (fun failure final => failure.Interrupts migrator.hooks final.database) := by
  obtain ⟨scripts, new, hcommitted, hrows, hids, hload, onAbort, habort⟩ :=
    (ends_up_appended hhooks hscan hskipped).of_ok hup
  have hlater : migrator.rows later = migrator.rows world ++ new := (rows_congr hledger).trans hrows
  have hascending : (migrator.rows world ++ new).Pairwise (fun a b => a.id < b.id) :=
    hlater ▸ migrator.rows_ascending later
  have hnew : (new.map Change.id).head? = some first := by rw [hids, ← hcommitted, hfirst]
  have hlength : report.committed.length = new.length := by
    rw [hcommitted, ← hids, List.length_map]
  -- the way back reaches the new rows, the last one first
  have hplan := Plan.make_down_last hascending hids hnew (hlength ▸ hback) fun script hmem =>
    (hscripts.load? hscan script.id).trans (hload script hmem)
  rw [← hlater] at hplan
  have hready : (migrator.runner onAbort).Ready .down scripts.reverse {}
      (taken migrator.settings.lockKey later) := by
    refine .down ?_ fun script hmem => ?_
    · show migrator.rows (taken _ later) ≠ []
      rw [rows_taken, hlater]
      refine List.append_ne_nil_of_right_ne_nil _ ?_
      rintro rfl
      cases hnew
    · have hmem := List.mem_reverse.mp hmem
      obtain ⟨found, hfound, hreversible⟩ :=
        hundo script.id (hcommitted ▸ List.mem_map_of_mem hmem)
      rw [hload script hmem] at hfound
      rwa [Option.some.inj (Except.ok.inj hfound)]
  have habort' : migrator.folder.onAbort?
      (taken migrator.settings.lockKey later).home = .ok onAbort := by
    rw [home_taken, hscripts.onAbort, habort]
  rw [down, ends_runTarget_of_plan hfree hreach (hscripts.scan.trans hscan) hplan]
  refine ((ends_runPlan_recorded _ hhooks).and
    (ends_runPlan_ready hhooks habort' hready)).mono (fun undone final h => ?_)
    fun failure final h => h.2.congr (failures_returned _ _) (unreachable_returned _ _)
  obtain ⟨⟨hundone, -, base, hbase, hrecorded⟩, -⟩ := h
  constructor
  · rw [hundone, hcommitted, ← List.map_reverse]
    rfl
  · have hleft : migrator.rows final = (Table.rowsOf base).filter
        (fun row => row.id ∉ scripts.reverse.map Script.id) := hrecorded.2
    rw [rows_returned, hleft, hbase, rows_taken, hlater, List.map_reverse, ← hids]
    simp only [List.mem_reverse]
    exact Change.filter_append_new hascending

/-- A migrator without hooks that puts a run in one transaction. -/
private def careful : Migrator := { plain with settings := { transactionMode := .perPlan } }

/-- A world with two scripts, and a ledger with a row whose script is gone. -/
private def grown : World where
  database := {
    tables := [("changelog", Table.empty.insert ((Change.pending ⟨1⟩ "a").stamped ⟨7, 0⟩))] }
  home := ⟨[(["scripts"], .folder),
    (["scripts", "2_b.sql"], .file "b;\n-- //@UNDO\nxb;".toUTF8 false),
    (["scripts", "3_c.sql"], .file "c;\n-- //@UNDO\nxc;".toUTF8 false)]⟩

private def grownScripts : Catalog where
  entries := [⟨⟨2⟩, "b", "2_b.sql", .file ⟨"scripts/2_b.sql"⟩⟩,
    ⟨⟨3⟩, "c", "3_c.sql", .file ⟨"scripts/3_c.sql"⟩⟩]
  ascending := by decide

private theorem scan_grown : careful.folder.scan grown.home = .ok grownScripts :=
  ScriptFolder.scan_of_ascending (by rfl) (by rfl) (by rfl) grownScripts.ascending

/-- Both scripts are applied, and two steps down leave the row that was there. -/
theorem down_restores_up_grown :
    ∃ report after, (careful.up .latest).run.run grown = (.ok report, after) ∧
      report.committed = [⟨2⟩, ⟨3⟩] ∧
      Ends (careful.down (.steps 2)) after
        (fun undone final => undone.committed = [⟨3⟩, ⟨2⟩] ∧
          careful.rows final = [(Change.pending ⟨1⟩ "a").stamped ⟨7, 0⟩])
        (fun failure final => failure.Interrupts careful.hooks final.database) := by
  have hplan : Plan.make grownScripts grown.home (careful.rows grown) .up .latest =
      .ok ⟨.up, [⟨⟨2⟩, "b", "2_b.sql", "b;\n", some "xb;\n"⟩,
        ⟨⟨3⟩, "c", "3_c.sql", "c;\n", some "xc;\n"⟩], [(Change.pending ⟨1⟩ "a").stamped ⟨7, 0⟩],
        []⟩ := eq_ok_of_toOption (by decide +kernel)
  have hup : Ends (careful.up .latest) grown
      (fun report after => report.committed = [⟨2⟩, ⟨3⟩] ∧ after.home = grown.home ∧
        after.database.locks = [] ∧ after.database.unreachable = false) (fun _ _ => False) := by
    rw [up, ends_runTarget_of_plan (by decide) rfl scan_grown hplan]
    exact ⟨rfl, rfl, rfl, rfl⟩
  obtain ⟨report, after, hrun, hcommitted, hhome, hlocks, hreach⟩ := hup.exists_ok
  refine ⟨report, after, hrun, hcommitted, ?_⟩
  have hundo : ∀ id ∈ report.committed, ∃ script,
      grownScripts.load? grown.home id = .ok (some script) ∧ script.isReversible := by
    rw [hcommitted]
    refine List.forall_mem_cons.mpr ⟨?_, List.forall_mem_singleton.mpr ?_⟩
    · exact ⟨⟨⟨2⟩, "b", "2_b.sql", "b;\n", some "xb;\n"⟩,
        eq_ok_of_toOption (by decide +kernel), rfl⟩
    · exact ⟨⟨⟨3⟩, "c", "3_c.sql", "c;\n", some "xc;\n"⟩,
        eq_ok_of_toOption (by decide +kernel), rfl⟩
  have hends := @down_restores_up careful grown grownScripts .latest (.steps 2) report ⟨2⟩ after
    after (fun _ _ hfind => nomatch hfind) scan_grown (by decide +kernel) hrun
    (by rw [hcommitted]; rfl) hundo rfl (by rw [hhome]; exact ⟨rfl, fun _ _ _ _ => rfl, rfl⟩)
    (by rw [hlocks]; exact List.not_mem_nil) hreach (.inl (by rw [hcommitted]; rfl))
  rw [hcommitted] at hends
  exact hends

end Migrator

end Migrations

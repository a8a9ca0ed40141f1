import Migrations.Proofs.Migrator.Planning

/-!
# Runs to a Version

Where a run to a version leads, from any ledger.  Its direction follows from the latest applied
change alone.  When that is later than the version, the later changes are undone and nothing is
applied, so the version is reached only if it was applied before; when it is earlier, everything
pending up to the version is applied.

## Main statements

- `Migrator.ends_version_moves`: the ledger after a run to a version.
- `Migrator.version_reaches_iff`: when the version is the latest change then, and that asking for it
  again changes nothing.
-/

namespace Migrations

open Attempt

/-! ## Plans to versions -/

/-- A change is applied in a version of the ledger: it is not later than the version, and it was
applied before, or it has a script and nothing from the version on was applied before. -/
def Catalog.AppliedIn (catalog : Catalog) (ledger : List ChangeId) (version id : ChangeId) : Prop :=
  id ≤ version ∧ (id ∈ ledger ∨ id ∈ catalog.ids ∧ ∀ applied ∈ ledger, applied < version)

namespace Plan

variable {catalog : Catalog} {home : Home} {ledger : List Change} {plan : Plan}

theorem mem_ids_make_up_through (hfiles : catalog.OnFiles) {id : ChangeId}
    (h : make catalog home ledger .up (.through id) = .ok plan) (other : ChangeId) :
    other ∈ plan.ids ↔ other ∈ catalog.ids ∧ other ∉ ledger.map Change.id ∧ other ≤ id := by
  rw [(ids_make_up hfiles h).2, List.mem_map]
  simp only [Catalog.mem_selectUp_through, Catalog.mem_pendingEntries]
  constructor
  · rintro ⟨entry, ⟨⟨hentry, hnew⟩, hle⟩, rfl⟩
    exact ⟨List.mem_map_of_mem hentry, hnew, hle⟩
  · rintro ⟨hid, hnew, hle⟩
    obtain ⟨entry, hentry, rfl⟩ := List.mem_map.mp hid
    exact ⟨entry, ⟨⟨hentry, hnew⟩, hle⟩, rfl⟩

theorem mem_ids_make_down_through (hfiles : catalog.OnFiles)
    (hledger : ledger.Pairwise (fun a b => a.id < b.id)) {id : ChangeId}
    (h : make catalog home ledger .down (.through id) = .ok plan) (other : ChangeId) :
    other ∈ plan.ids ↔ other ∈ ledger.map Change.id ∧ id ≤ other := by
  rw [(ids_make_down hfiles h).2, List.mem_map, List.mem_map]
  simp only [Catalog.mem_selectDown_through hledger]
  constructor
  · rintro ⟨change, ⟨hchange, hle⟩, rfl⟩
    exact ⟨⟨change, hchange, rfl⟩, hle⟩
  · rintro ⟨⟨change, hchange, rfl⟩, hle⟩
    exact ⟨change, ⟨hchange, hle⟩, rfl⟩

/-- The smallest of some ids. -/
theorem foldl_least (ids : List ChangeId) (first : ChangeId) :
    ids.foldl (fun a b => if b < a then b else a) first ∈ first :: ids ∧
      ∀ id ∈ first :: ids, ids.foldl (fun a b => if b < a then b else a) first ≤ id := by
  induction ids generalizing first with
  | nil => simp [ChangeId.le_refl]
  | cons next rest ih =>
    obtain ⟨hmem, hleast⟩ := ih (if next < first then next else first)
    rw [List.foldl_cons]
    -- the smaller one of the first two stands for both of them
    have hfirst : (if next < first then next else first) ≤ first ∧
        (if next < first then next else first) ≤ next := by
      split
      · exact ⟨ChangeId.le_of_lt ‹_›, ChangeId.le_refl next⟩
      · exact ⟨ChangeId.le_refl first, ChangeId.not_lt.mp ‹_›⟩
    have hhead := hleast _ List.mem_cons_self
    constructor
    · rcases List.mem_cons.mp hmem with heq | hrest
      · rw [heq]
        split <;> simp
      · exact List.mem_cons_of_mem _ (List.mem_cons_of_mem _ hrest)
    · intro id hid
      rcases List.mem_cons.mp hid with rfl | hid
      · exact ChangeId.le_trans hhead hfirst.1
      · rcases List.mem_cons.mp hid with rfl | hid
        · exact ChangeId.le_trans hhead hfirst.2
        · exact hleast id (List.mem_cons_of_mem _ hid)

/-- The applied changes from the first one after a version on are those after the version. -/
theorem oldest_le_iff {ids : List ChangeId} {id latest other : ChangeId} (hlatest : id < latest)
    (hother : other ∈ ids) :
    (ids.filter fun applied => decide (id < applied)).foldl (fun a b => if b < a then b else a)
      latest ≤ other ↔ id < other := by
  obtain ⟨hmem, hleast⟩ := foldl_least (ids.filter fun applied => decide (id < applied)) latest
  constructor
  · intro hle
    refine ChangeId.lt_of_lt_of_le ?_ hle
    rcases List.mem_cons.mp hmem with heq | hlater
    · rw [heq]
      exact hlatest
    · exact of_decide_eq_true (List.mem_filter.mp hlater).2
  · intro hlt
    exact hleast other (List.mem_cons_of_mem _
      (List.mem_filter.mpr ⟨hother, decide_eq_true hlt⟩))

/-- A run up to a version that is later than the ledger applies what is pending up to it. -/
theorem moves_up_through (hfiles : catalog.OnFiles) {id : ChangeId}
    (hpast : ∀ applied ∈ ledger.map Change.id, applied < id)
    (h : make catalog home ledger .up (.through id) = .ok plan) {after : List ChangeId}
    (hmoves : plan.direction.Moves plan.ids (ledger.map Change.id) after) (other : ChangeId) :
    other ∈ after ↔ other ≤ id ∧ (other ∈ ledger.map Change.id ∨ other ∈ catalog.ids) := by
  have hplan := mem_ids_make_up_through hfiles h other
  rw [(ids_make_up hfiles h).1] at hmoves
  rw [hmoves other, hplan]
  by_cases happlied : other ∈ ledger.map Change.id
  · have hle := ChangeId.le_of_lt (hpast other happlied)
    simp only [happlied, hle, true_or, and_self]
  · simp only [happlied, false_or, not_false_iff, true_and]
    exact and_comm

/-- A run down from changes that are later than a version undoes just them. -/
theorem moves_down_through (hfiles : catalog.OnFiles)
    (hledger : ledger.Pairwise (fun a b => a.id < b.id)) {id oldest : ChangeId}
    (holdest : ∀ applied ∈ ledger.map Change.id, oldest ≤ applied ↔ id < applied)
    (h : make catalog home ledger .down (.through oldest) = .ok plan) {after : List ChangeId}
    (hmoves : plan.direction.Moves plan.ids (ledger.map Change.id) after) (other : ChangeId) :
    other ∈ after ↔ other ≤ id ∧ other ∈ ledger.map Change.id := by
  have hplan := mem_ids_make_down_through hfiles hledger h other
  rw [(ids_make_down hfiles h).1] at hmoves
  rw [hmoves other, hplan]
  by_cases happlied : other ∈ ledger.map Change.id
  · simp only [happlied, true_and, and_true, holdest other happlied]
    exact ChangeId.not_lt
  · simp [happlied]

/-- A plan to a version leads to that version of the ledger. -/
theorem moves_toVersion (hfiles : catalog.OnFiles)
    (hledger : ledger.Pairwise (fun a b => a.id < b.id)) {id : ChangeId}
    (h : toVersion catalog home ledger id = .ok plan) {after : List ChangeId}
    (hmoves : plan.direction.Moves plan.ids (ledger.map Change.id) after) (other : ChangeId) :
    other ∈ after ↔ catalog.AppliedIn (ledger.map Change.id) id other := by
  unfold Catalog.AppliedIn
  have hup : (∀ applied ∈ ledger.map Change.id, applied < id) →
      make catalog home ledger .up (.through id) = .ok plan → (other ∈ after ↔ other ≤ id ∧
        (other ∈ ledger.map Change.id ∨
          other ∈ catalog.ids ∧ ∀ applied ∈ ledger.map Change.id, applied < id)) := by
    intro hpast hmake
    rw [moves_up_through hfiles hpast hmake hmoves other, and_iff_left hpast]
  have hnotPast : ∀ {latest : ChangeId}, latest ∈ ledger.map Change.id → id ≤ latest →
      ¬ ∀ applied ∈ ledger.map Change.id, applied < id :=
    fun hmem hle hpast => ChangeId.not_lt.mpr hle (hpast _ hmem)
  unfold toVersion at h
  split at h
  · rename_i hnone
    exact hup (by simp [Catalog.latest?_eq_none.mp hnone]) h
  · rename_i latest hlatest
    obtain ⟨hmem, hgreatest⟩ := Catalog.latest?_eq_some.mp hlatest
    split at h
    -- the version is the latest change, and nothing is done
    · rename_i heq
      subst heq
      cases h
      have hidle : other ∈ after ↔ other ∈ ledger.map Change.id := by
        simpa [idle, ids] using hmoves other
      rw [hidle]
      simp only [hnotPast hmem (ChangeId.le_refl latest), and_false, or_false]
      exact ⟨fun hother => ⟨hgreatest other hother, hother⟩, And.right⟩
    · rename_i hne
      split at h
      · rename_i hlt
        exact hup (fun applied happlied => Nat.lt_of_le_of_lt (hgreatest applied happlied) hlt) h
      · rename_i hge
        have hlt : id < latest := ChangeId.lt_of_le_of_ne (ChangeId.not_lt.mp hge) (Ne.symm hne)
        have holdest : ∀ applied ∈ ledger.map Change.id, _ ≤ applied ↔ id < applied :=
          fun applied happlied => oldest_le_iff hlt happlied
        rw [moves_down_through hfiles hledger holdest h hmoves other]
        simp only [hnotPast hmem (ChangeId.le_of_lt hlt), and_false, or_false]

end Plan

/-- A version of the ledger has the version as its latest change when that was applied before, or
when everything that was applied before is earlier. -/
theorem Catalog.latest?_appliedIn {catalog : Catalog} {ledger : List ChangeId}
    {after : List Change} {id : ChangeId} (hid : id ∈ catalog.ids)
    (h : ∀ other, other ∈ after.map Change.id ↔ catalog.AppliedIn ledger id other) :
    latest? after = some id ↔ id ∈ ledger ∨ ∀ applied ∈ ledger, applied < id := by
  rw [latest?_eq_some, h id]
  have hgreatest : ∀ other ∈ after.map Change.id, other ≤ id :=
    fun other hother => ((h other).mp hother).1
  constructor
  · rintro ⟨⟨-, happlied | ⟨-, hpast⟩⟩, -⟩
    · exact .inl happlied
    · exact .inr hpast
  · rintro (happlied | hpast)
    · exact ⟨⟨ChangeId.le_refl id, .inl happlied⟩, hgreatest⟩
    · exact ⟨⟨ChangeId.le_refl id, .inr ⟨hid, hpast⟩⟩, hgreatest⟩

/-! ## Runs to versions -/

namespace Migrator

variable {migrator : Migrator} {world : World} {id : ChangeId}

/-- A run to a version that succeeds leaves that version of the ledger. -/
theorem ends_version_moves (hhooks : migrator.hooks.KeepLedger migrator.settings.changelogTable)
    (id : ChangeId) :
    Ends (migrator.version id) world
      (fun _ after => ∃ catalog, migrator.folder.scan world.home = .ok catalog ∧
        id ∈ catalog.ids ∧ ∀ other, other ∈ migrator.appliedIds after ↔
          catalog.AppliedIn (migrator.appliedIds world) id other)
      (fun _ _ => True) := by
  by_cases hheld : migrator.settings.lockKey ∈ world.database.locks
  · rw [version, underLock, RunLock.ends_holding,
      if_pos (List.contains_iff_mem.mpr hheld)]
    trivial
  · rw [version, ends_underLock hheld, Operation.runVersion_eq, ends_bind, ends_versionPlan,
      RunLock.home_taken, rows_taken]
    split
    · trivial
    · rename_i catalog hscan
      split
      · trivial
      · rename_i hcontains
        have hid : id ∈ catalog.ids := Catalog.contains_iff.mp (by simpa using hcontains)
        split
        · trivial
        · split
          · rename_i plan hplan
            refine (ends_runPlan_recorded plan hhooks).mono (fun report after h => ?_)
              fun _ _ _ => trivial
            obtain ⟨-, -, base, hbase, hrecorded⟩ := h
            have hmoves := hrecorded.moves
            rw [hbase, rows_taken] at hmoves
            refine ⟨catalog, hscan, hid, fun other => ?_⟩
            rw [appliedIds_congr (RunLock.table?_returned _ _ _)]
            exact Plan.moves_toVersion (ScriptFolder.onFiles_scan hscan)
              (migrator.rows_ascending world) hplan hmoves other
          · trivial

/-- Asking for the version of the latest change does nothing. -/
theorem ends_version_latest (h : migrator.Undisturbed world) {catalog : Catalog}
    (hscan : migrator.folder.scan world.home = .ok catalog) (hid : id ∈ catalog.ids)
    {onAbort : Option String} (habort : migrator.folder.onAbort? world.home = .ok onAbort)
    (hlatest : Catalog.latest? (migrator.rows world) = some id) :
    Ends (migrator.version id) world
      (fun report after => report.outcomes = [] ∧ after = world) (fun _ _ => False) := by
  -- the plan is idle, and a plan without scripts changes nothing
  have hidle : Plan.toVersion catalog world.home (migrator.rows world) id =
      .ok (Plan.idle catalog (migrator.rows world)) := by
    rw [Plan.toVersion, hlatest]
    exact if_pos rfl
  have htaken : migrator.folder.onAbort?
      (RunLock.taken migrator.settings.lockKey world).home = .ok onAbort := by
    rw [RunLock.home_taken]
    exact habort
  rw [ends_version_of_plan h.free h.reach hscan hid hidle, ends_runPlan_idle htaken rfl]
  exact ⟨rfl, RunLock.returned_taken h.free h.returnable⟩

/-- After a run to a version the ledger's latest change is the version exactly when the version was
applied before or everything that was applied is earlier.  When it is, asking for the version again
does nothing. -/
theorem version_reaches_iff {report : Report} {after later : World}
    (hhooks : migrator.hooks.KeepLedger migrator.settings.changelogTable)
    (hrun : (migrator.version id).run.run world = (.ok report, after))
    (hledger : later.database.table? migrator.settings.changelogTable =
      after.database.table? migrator.settings.changelogTable)
    (hlater : migrator.Undisturbed later) :
    ((migrator.ledger.latest?.run.run later).1.map (Option.map Change.id) = .ok (some id) ↔
      id ∈ migrator.appliedIds world ∨ ∀ applied ∈ migrator.appliedIds world, applied < id) ∧
    ((migrator.ledger.latest?.run.run later).1.map (Option.map Change.id) = .ok (some id) →
      ∀ catalog onAbort, migrator.folder.scan later.home = .ok catalog → id ∈ catalog.ids →
        migrator.folder.onAbort? later.home = .ok onAbort →
        ∃ again, (migrator.version id).run.run later = (.ok again, later) ∧
          again.outcomes = []) := by
  obtain ⟨catalog, -, hid, hmoves⟩ := (ends_version_moves hhooks id).of_ok hrun
  have hlatest : (migrator.ledger.latest?.run.run later).1.map (Option.map Change.id) =
      .ok (Catalog.latest? (migrator.rows later)) := by
    have hends : Ends migrator.ledger.latest? later
        (fun row? _ => row? = (migrator.rows later).getLast?) (fun _ _ => False) := by
      rw [Ledger.ends_latest?, if_neg (by simp [hlater.reach])]
      rfl
    obtain ⟨row?, now, hlook, rfl⟩ := hends.exists_ok
    rw [hlook, Catalog.latest?_of_ascending (migrator.rows_ascending later)]
    rfl
  rw [hlatest, Except.ok.injEq]
  constructor
  · refine Catalog.latest?_appliedIn hid fun other => ?_
    rw [map_id_rows, appliedIds_congr hledger]
    exact hmoves other
  · intro hreached catalog onAbort hscan hid habort
    obtain ⟨again, last, hagain, hnone, rfl⟩ :=
      (ends_version_latest hlater hscan hid habort hreached).exists_ok
    exact ⟨again, hagain, hnone⟩

private theorem keepLedger_plain (table : String) : plain.hooks.KeepLedger table :=
  fun _ _ hfind => nomatch hfind

/-- A world with two scripts, the later of which is applied. -/
private def passed : World where
  database := {
    tables := [("changelog", Table.empty.insert ((Change.pending ⟨2⟩ "b").stamped ⟨0, 0⟩))] }
  home := ⟨[(["scripts"], .folder),
    (["scripts", "1_a.sql"], .file "a;\n-- //@UNDO\nxa;".toUTF8 false),
    (["scripts", "2_b.sql"], .file "b;\n-- //@UNDO\nxb;".toUTF8 false)]⟩

private def bothEntries : List ScriptEntry :=
  [⟨⟨1⟩, "a", "1_a.sql", .file ⟨"scripts/1_a.sql"⟩⟩,
    ⟨⟨2⟩, "b", "2_b.sql", .file ⟨"scripts/2_b.sql"⟩⟩]

/-- The catalog of both scripts. -/
private def bothScripts : Catalog where
  entries := bothEntries
  ascending := by decide

private theorem scan_passed : plain.folder.scan passed.home = .ok bothScripts :=
  ScriptFolder.scan_of_ascending (by rfl) (by rfl) (by rfl) bothScripts.ascending

/-- The world after the later script was undone. -/
private def undone : World :=
  { passed with database := { tables := [("changelog", .empty)], log := ["xb"] } }

/-- The world after the earlier script was applied then. -/
private def applied : World :=
  { passed with
    database := {
      tables := [("changelog", Table.empty.insert
        (((Change.pending ⟨1⟩ "a").named "1_a.sql").stamped ⟨0, 0⟩))]
      log := ["xb", "a"] }
    readings := 1 }

private theorem run_passed :
    (plain.version ⟨1⟩).run.run passed =
      (.ok ⟨.down, [⟨⟨2⟩, "2_b.sql", "b", .committed, 1⟩],
        [Plan.skippedWarning (Change.pending ⟨1⟩ "a")]⟩, undone) := by
  have hplan : Plan.toVersion bothScripts passed.home (plain.rows passed) ⟨1⟩ =
      .ok ⟨.down, [⟨⟨2⟩, "b", "2_b.sql", "b;\n", some "xb;\n"⟩], [],
        [(Change.pending ⟨1⟩ "a").named "1_a.sql"]⟩ := eq_ok_of_toOption (by decide +kernel)
  apply Ends.run_eq
  rw [ends_version_of_plan (by decide) rfl scan_passed (by decide) hplan]
  exact ⟨rfl, rfl⟩

private theorem run_undone :
    (plain.version ⟨1⟩).run.run undone =
      (.ok ⟨.up, [⟨⟨1⟩, "1_a.sql", "a", .committed, 1⟩], []⟩, applied) := by
  have hplan : Plan.toVersion bothScripts undone.home (plain.rows undone) ⟨1⟩ =
      .ok ⟨.up, [⟨⟨1⟩, "a", "1_a.sql", "a;\n", some "xa;\n"⟩], [], []⟩ :=
    eq_ok_of_toOption (by decide +kernel)
  have hscan : plain.folder.scan undone.home = .ok bothScripts := scan_passed
  apply Ends.run_eq
  rw [ends_version_of_plan (by decide) rfl hscan (by decide) hplan]
  exact ⟨rfl, rfl⟩

/-- The version is reached from an empty ledger, and then nothing is left to do. -/
theorem version_reaches_iff_undone :
    (plain.ledger.latest?.run.run applied).1.map (Option.map Change.id) = .ok (some ⟨1⟩) ∧
      ∃ again, (plain.version ⟨1⟩).run.run applied = (.ok again, applied) ∧
        again.outcomes = [] := by
  have happlied : plain.Undisturbed applied := ⟨by decide, rfl, rfl⟩
  obtain ⟨hreached, hagain⟩ := version_reaches_iff (keepLedger_plain _) run_undone rfl happlied
  have hlatest := hreached.mpr (.inr fun id hid => nomatch hid)
  exact ⟨hlatest, hagain hlatest bothScripts none scan_passed (by decide) rfl⟩

/-- A version that was passed over is not reached: the later change is undone, and nothing is
applied.  Only the next run to the version applies it. -/
theorem version_misses :
    plain.hooks.KeepLedger plain.settings.changelogTable ∧
      (∃ report, (plain.version ⟨1⟩).run.run passed = (.ok report, undone)) ∧
      (plain.ledger.latest?.run.run undone).1 = .ok none ∧
      ∃ again, (plain.version ⟨1⟩).run.run undone = (.ok again, applied) ∧
        again.committed = [⟨1⟩] :=
  ⟨keepLedger_plain _, ⟨_, run_passed⟩, rfl, _, run_undone, by decide⟩

end Migrator

end Migrations

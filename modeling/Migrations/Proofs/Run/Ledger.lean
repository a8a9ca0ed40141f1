import Migrations.Proofs.Database.View
import Migrations.Proofs.Hook.Ledger
import Migrations.Proofs.Run.Execution
import Migrations.Proofs.Run.Script

/-!
# Runs and the Rows of the Ledger

What a run does to the rows of its ledger, in either mode: upwards the committed scripts get a row
each, downwards they lose theirs, and no other row changes.  The hooks are supposed to write no rows
of the ledger; whatever else they do does not matter.

## Main statements

- `Runner.ends_apply_recorded`: a script that is executed is recorded, and nothing else is.
- `Runner.ends_run_recorded`: a run that succeeds has recorded all scripts of its plan.
- `Runner.run_execute_moves`: a run moves the ids that its report calls committed.
-/

namespace Migrations

open Attempt

/-! ## Moves -/

/-- The ids of a ledger before and after scripts with the given ids were executed. -/
def Direction.Moves (direction : Direction) (done before after : List ChangeId) : Prop :=
  ∀ id, id ∈ after ↔
    match direction with
    | .up => id ∈ before ∨ id ∈ done
    | .down => id ∈ before ∧ id ∉ done

theorem Direction.Moves.nil (direction : Direction) (ids : List ChangeId) :
    direction.Moves [] ids ids := by
  intro id
  cases direction <;> simp

namespace Runner

variable {runner : Runner} {world : World}

/-- New rows have the ids of their scripts. -/
theorem map_id_stamped {scripts : List Script} {times : List Instant}
    (hlength : times.length = scripts.length) :
    (List.zipWith (fun script time => script.change.stamped time) scripts times).map Change.id =
      scripts.map Script.id := by
  induction scripts generalizing times with
  | nil => simp
  | cons script rest ih =>
    cases times with
    | nil => simp at hlength
    | cons time more =>
      have hrest : more.length = rest.length := by simpa using hlength
      simp [ih hrest]

/-- Scripts that are recorded have moved their ids. -/
theorem Recorded.moves {direction : Direction} {done : List Script} {before after : Option Table}
    (h : Recorded direction done before after) :
    direction.Moves (done.map Script.id) ((Table.rowsOf before).map Change.id)
      ((Table.rowsOf after).map Change.id) := by
  intro id
  cases direction with
  | up =>
    obtain ⟨times, hlength, hperm⟩ := h.2
    have hids := (hperm.map Change.id).mem_iff (a := id)
    rw [List.map_append, map_id_stamped hlength, List.mem_append] at hids
    exact hids
  | down =>
    have hrows : Table.rowsOf after =
      (Table.rowsOf before).filter (fun row => row.id ∉ done.map Script.id) := h.2
    rw [hrows]
    -- a row is left exactly when its id is not the one of a script
    simp only [List.mem_map, List.mem_filter, decide_eq_true_eq]
    constructor
    · rintro ⟨row, ⟨hrow, hnot⟩, rfl⟩
      exact ⟨⟨row, hrow, rfl⟩, by simpa using hnot⟩
    · rintro ⟨⟨row, hrow, rfl⟩, hnot⟩
      exact ⟨row, ⟨hrow, by simpa using hnot⟩, rfl⟩

/-! ## What is seen of the ledger -/

/-- The table of the ledger as a transaction sees it. -/
def seen (runner : Runner) (tx : Transaction) (world : World) : Option Table :=
  tx.onTable runner.ledger.table (world.database.table? runner.ledger.table)

theorem seen_empty : runner.seen {} world = world.database.table? runner.ledger.table := rfl

theorem seen_withStatements (tx : Transaction) (statements : List String) :
    runner.seen (tx.withStatements statements) world = runner.seen tx world :=
  Transaction.onTable_withStatements _ _ _ _

/-- After a commit everyone sees what the transaction saw. -/
theorem seen_commit (tx : Transaction) :
    runner.seen {} { world with database := tx.commit world.database } = runner.seen tx world :=
  Transaction.table?_commit _ _ _

/-- The ledger's table has not changed. -/
def Untouched (runner : Runner) (before after : World) : Prop :=
  after.database.table? runner.ledger.table = before.database.table? runner.ledger.table

theorem Untouched.refl (runner : Runner) (world : World) : runner.Untouched world world := rfl

theorem Untouched.trans {a b c : World} (hab : runner.Untouched a b) (hbc : runner.Untouched b c) :
    runner.Untouched a c := Eq.trans hbc hab

/-! ## One script -/

/-- Hooks do not change what is seen of the ledger. -/
theorem ends_callHook_untouched (hhooks : runner.hooks.KeepLedger runner.ledger.table)
    (slot : HookSlot) (change? : Option (Change × Nat)) (tx : Transaction) :
    Ends (runner.callHook slot change? tx) world
      (fun result after => runner.Untouched world after ∧
        runner.seen result after = runner.seen tx world)
      (fun _ after => runner.Untouched world after) := by
  rw [ends_callHook_eq]
  cases hfind : runner.hooks.find? slot with
  | none => exact ⟨rfl, rfl⟩
  | some hook =>
    -- the hook leaves the table and what its transaction does to it alone
    refine (hhooks slot hook hfind _ tx world).mono (fun tx? after h => ⟨h.1, ?_⟩)
      fun _ _ h => h
    rw [seen, seen, h.1, h.2]

/-- Why the row of a script is not written: the table cannot be reached, or it has the row. -/
def Refuses (runner : Runner) (direction : Direction) (script : Script) (tx : Transaction)
    (world : World) : Prop :=
  (∃ fault, world.database.reach runner.ledger.table = .error fault) ∨
    direction = .up ∧ script.id ∈ (Table.rowsOf (runner.seen tx world)).map Change.id

/-- The row of a script is written, or the ledger refuses it. -/
theorem ends_writeLedger_recorded (direction : Direction) (script : Script) (tx : Transaction) :
    Ends (runner.writeLedger direction script.change tx) world
      (fun result after => runner.Untouched world after ∧
        Recorded direction [script] (runner.seen tx world) (runner.seen result after))
      (fun _ after => runner.Untouched world after ∧ runner.Refuses direction script tx world) := by
  -- what the writes of the transaction leave of a table that is there
  have hseen : ∀ table, world.database.table? runner.ledger.table = some table →
      ∃ rows, runner.seen tx world = some rows ∧
        ∀ id, rows.contains id = tx.visible (table.contains id) runner.ledger.table id := by
    intro table htable
    unfold seen
    rw [htable]
    exact Transaction.onTable_eq_some _ tx.writes table
  cases direction with
  | up =>
    rw [writeLedger, ends_map, Ledger.ends_record]
    -- a row is refused when the table cannot be reached or has the id; else it is written
    dsimp only [Transaction.insert]
    cases hreach : world.database.reach runner.ledger.table with
    | error fault => exact ⟨rfl, .inl ⟨fault, hreach⟩⟩
    | ok table =>
      obtain ⟨rows, hrows, hcontains⟩ := hseen table (Database.reach_eq_ok.mp hreach).2
      dsimp only
      rw [← hcontains]
      by_cases hheld : rows.contains (script.change.stamped (world.clock world.readings)).id = true
      · rw [if_pos hheld]
        refine ⟨rfl, .inr ⟨rfl, ?_⟩⟩
        rw [hrows]
        exact Table.contains_iff.mp hheld
      · rw [if_neg hheld]
        refine ⟨rfl, ?_⟩
        have hnew : script.id ∉ rows.ids := fun hmem => hheld (Table.contains_iff.mpr hmem)
        have hafter : runner.seen (tx.add (.insert runner.ledger.table
            (script.change.stamped (world.clock world.readings)))) world =
            some (rows.insert (script.change.stamped (world.clock world.readings))) := by
          rw [seen, Transaction.onTable_add, ← seen, hrows, Write.onTable, if_pos rfl]
          rfl
        rw [hrows]
        exact hafter ▸ recorded_insert _ hnew
  | down =>
    rw [writeLedger, Ledger.ends_remove]
    -- there is one way to be refused: the table cannot be reached
    dsimp only [Transaction.delete]
    cases hreach : world.database.reach runner.ledger.table with
    | error fault => exact ⟨rfl, .inl ⟨fault, hreach⟩⟩
    | ok table =>
      obtain ⟨rows, hrows, -⟩ := hseen table (Database.reach_eq_ok.mp hreach).2
      refine ⟨rfl, ?_⟩
      have hafter : runner.seen (tx.add (.delete runner.ledger.table script.id)) world =
          some (rows.erase script.id) := by
        rw [seen, Transaction.onTable_add, ← seen, hrows, Write.onTable, if_pos rfl]
        rfl
      rw [hrows]
      exact hafter ▸ recorded_erase script rows

/-- A script that is executed is recorded, and no other script is. -/
theorem ends_apply_recorded (hhooks : runner.hooks.KeepLedger runner.ledger.table)
    (direction : Direction) (sequence : Nat) (script : Script) (text : String)
    (tx : Transaction) :
    Ends (runner.apply direction sequence script text tx) world
      (fun result after => runner.Untouched world after ∧
        Recorded direction [script] (runner.seen tx world) (runner.seen result.1 after))
      (fun _ after => runner.Untouched world after) := by
  rw [ends_apply_eq]
  refine (ends_callHook_untouched hhooks _ _ tx).mono (fun t now h => ?_) fun _ _ h => h
  split
  · refine (ends_callHook_untouched hhooks _ _ _).mono (fun u then' h' => ?_)
      fun _ _ h' => h.1.trans h'
    refine (ends_writeLedger_recorded direction script u).mono (fun v after hw => ?_)
      fun _ _ hw => (h.1.trans h'.1).trans hw.1
    refine ⟨(h.1.trans h'.1).trans hw.1, ?_⟩
    -- neither the hooks nor the statements changed what is seen of the ledger
    have hseen : runner.seen u then' = runner.seen tx world := by
      rw [h'.2, seen_withStatements, h.2]
    rw [← hseen]
    exact hw.2
  · exact h.1

/-! ## Scripts one by one -/

/-- The ids of the ledger in the database. -/
def ids (runner : Runner) (world : World) : List ChangeId :=
  world.database.appliedIds runner.ledger.table

theorem map_id_seen : (Table.rowsOf (runner.seen {} world)).map Change.id = runner.ids world := rfl

/-- All scripts are committed and recorded. -/
def Completed (direction : Direction) (scripts : List Script) (outcomes : List Outcome)
    (before after : Option Table) : Prop :=
  outcomes.map Outcome.mark = Script.marks true scripts ∧ Recorded direction scripts before after

/-- A first part of the scripts is committed and recorded, and the rest is not. -/
def Halted (direction : Direction) (scripts : List Script) (outcomes : List Outcome)
    (before after : Option Table) : Prop :=
  ∃ done rest, scripts = done ++ rest ∧
    outcomes.map Outcome.mark = Script.marks true done ++ Script.marks false rest ∧
    Recorded direction done before after

theorem Completed.halted {direction : Direction} {scripts : List Script} {outcomes : List Outcome}
    {before after : Option Table} (h : Completed direction scripts outcomes before after) :
    Halted direction scripts outcomes before after :=
  ⟨scripts, [], (List.append_nil _).symm, by simpa [Script.marks] using h.1, h.2⟩

theorem Halted.none (direction : Direction) {scripts : List Script} {outcomes : List Outcome}
    {before after : Option Table}
    (hmarks : outcomes.map Outcome.mark = Script.marks false scripts) (hsame : after = before) :
    Halted direction scripts outcomes before after := by
  refine ⟨[], scripts, rfl, hmarks, ?_⟩
  rw [hsame]
  exact .nil direction before

theorem ends_applyAlone_recorded (hhooks : runner.hooks.KeepLedger runner.ledger.table)
    (direction : Direction) (sequence : Nat) (script : Script) :
    Ends (runner.applyAlone direction sequence script) world
      (fun _ after => Recorded direction [script] (runner.seen {} world) (runner.seen {} after))
      (fun _ after => runner.Untouched world after) := by
  rw [ends_applyAlone_eq]
  cases script.text direction with
  | error failure => exact .refl runner world
  | ok text =>
    simp only [seen_commit]
    exact (ends_apply_recorded hhooks direction sequence script text {}).mono (fun _ _ h => h.2)
      fun _ _ h => h

theorem ends_callHookAlone_untouched (hhooks : runner.hooks.KeepLedger runner.ledger.table)
    (slot : HookSlot) :
    Ends (runner.callHookAlone slot) world
      (fun _ after => runner.Untouched world after)
      (fun _ after => runner.Untouched world after) := by
  rw [ends_callHookAlone_eq]
  split
  · refine (ends_callHook_untouched hhooks slot none {}).mono (fun tx after h => ?_)
      fun _ _ h => h
    exact (seen_commit tx).trans h.2
  · exact .refl runner world

/-- The loop over the scripts records those that it commits. -/
theorem ends_applyOneByOne_recorded (hhooks : runner.hooks.KeepLedger runner.ledger.table)
    (direction : Direction) (scripts : List Script) (sequence : Nat) :
    Ends (runner.applyOneByOne direction sequence scripts) world
      (fun outcomes after => Completed direction scripts outcomes (runner.seen {} world)
        (runner.seen {} after))
      (fun failure after => Halted direction scripts failure.1 (runner.seen {} world)
        (runner.seen {} after)) := by
  induction scripts generalizing sequence world with
  | nil =>
    rw [ends_applyOneByOne_nil]
    refine (ends_callHookAlone_untouched hhooks _).mono (fun _ after h => ⟨rfl, ?_⟩)
      fun _ after h => .none direction rfl h
    rw [seen_empty, seen_empty, h]
    exact .nil direction _
  | cons script rest ih =>
    rw [ends_applyOneByOne_cons]
    refine (ends_applyAlone_recorded hhooks direction sequence script).mono
      (fun n now hfirst => ?_) fun failure after h => ?_
    -- the first script is committed, whatever becomes of the rest
    · refine (ih (sequence + 1)).mono (fun outcomes after h => ?_) fun failure after h => ?_
      · exact ⟨congrArg (_ :: ·) h.1, hfirst.append h.2⟩
      · obtain ⟨done, others, rfl, hmarks, hrecorded⟩ := h
        exact ⟨script :: done, others, rfl, congrArg (_ :: ·) hmarks, hfirst.append hrecorded⟩
    · exact .none direction (congrArg (_ :: ·) (Outcome.marks_pending rest)) h

/-! ## Scripts together -/

/-- In one transaction all scripts are recorded, or the ledger stays untouched. -/
theorem ends_applyTogether_recorded (hhooks : runner.hooks.KeepLedger runner.ledger.table)
    (direction : Direction) (scripts : List Script) (sequence : Nat) (tx : Transaction) :
    Ends (runner.applyTogether direction sequence scripts tx) world
      (fun result after => runner.Untouched world after ∧
        result.2.map (fun outcome => (outcome.id, outcome.state)) =
          scripts.map (fun script => (script.id, .running)) ∧
        Recorded direction scripts (runner.seen tx world) (runner.seen result.1 after))
      (fun failure after => runner.Untouched world after ∧
        failure.1.map Outcome.mark = Script.marks false scripts) := by
  induction scripts generalizing sequence tx world with
  | nil =>
    rw [ends_applyTogether_nil]
    refine (ends_callHook_untouched hhooks _ none tx).mono (fun t after h => ⟨h.1, rfl, ?_⟩)
      fun _ _ h => ⟨h, rfl⟩
    rw [h.2]
    exact .nil direction _
  | cons script rest ih =>
    rw [ends_applyTogether_cons]
    cases script.text direction with
    -- without a section for the direction the script fails before it begins
    | error failure => exact ⟨.refl runner world, congrArg (_ :: ·) (Outcome.marks_pending rest)⟩
    | ok text =>
      refine (ends_apply_recorded hhooks direction sequence script text tx).mono
        (fun result now hfirst => ?_) fun failure after h => ?_
      · refine (ih (sequence + 1) result.1).mono (fun last after h => ?_) fun failure after h => ?_
        · exact ⟨hfirst.1.trans h.1, congrArg (_ :: ·) h.2.1, hfirst.2.append h.2.2⟩
        · exact ⟨hfirst.1.trans h.1, congrArg (_ :: ·) h.2⟩
      · exact ⟨h, congrArg (_ :: ·) (Outcome.marks_pending rest)⟩

/-! ## The run -/

/-- In either mode a run records the scripts that are committed. -/
theorem ends_runMode_recorded {plan : Plan}
    (hhooks : runner.hooks.KeepLedger runner.ledger.table) :
    Ends (runner.runMode plan) world
      (fun outcomes after => Completed plan.direction plan.scripts outcomes (runner.seen {} world)
        (runner.seen {} after))
      (fun failure after => Halted plan.direction plan.scripts failure.1 (runner.seen {} world)
        (runner.seen {} after)) := by
  unfold runMode
  split
  · rw [ends_runPerScript_eq]
    refine (ends_callHookAlone_untouched hhooks _).mono (fun _ now hbefore => ?_)
      fun _ _ h => .none plan.direction (Outcome.marks_pending _) h
    have hseen : runner.seen {} now = runner.seen {} world := hbefore
    rw [← hseen]
    exact ends_applyOneByOne_recorded hhooks plan.direction plan.scripts 0
  · rw [ends_runPerPlan_eq]
    simp only [seen_commit]
    refine (ends_callHook_untouched hhooks _ none {}).mono (fun t now hbefore => ?_)
      fun _ _ h => .none plan.direction (Outcome.marks_abandonAll (Outcome.marks_pending _)) h
    refine (ends_applyTogether_recorded hhooks plan.direction plan.scripts 0 t).mono
      (fun result after h => ?_) fun failure after h => ?_
    -- the commit of the one transaction commits all scripts
    · exact ⟨Outcome.marks_commitAll h.2.1, hbefore.2 ▸ h.2.2⟩
    · exact .none plan.direction (Outcome.marks_abandonAll h.2) (hbefore.1.trans h.1)

theorem rowsOf_start (plan : Plan) :
    Table.rowsOf (runner.seen {} (runner.start plan world)) =
      Table.rowsOf (runner.seen {} world) := by
  rw [seen_empty, seen_empty]
  unfold start
  split
  -- a table that was not there has no rows when it is made
  · dsimp only
    rw [Database.table?_createTable, if_pos rfl]
    rfl
  · rfl

/-- The scripts of a run are recorded on top of the rows that were there, whether or not the table
had to be made for them. -/
theorem ends_runScripts_recorded (plan : Plan)
    (hhooks : runner.hooks.KeepLedger runner.ledger.table) :
    Ends (runner.runScripts plan) world
      (fun outcomes after => ∃ base,
        Table.rowsOf base = Table.rowsOf (runner.seen {} world) ∧
          Completed plan.direction plan.scripts outcomes base (runner.seen {} after))
      (fun failure after => ∃ base,
        Table.rowsOf base = Table.rowsOf (runner.seen {} world) ∧
          Halted plan.direction plan.scripts failure.1 base (runner.seen {} after)) := by
  rw [ends_runScripts]
  split
  · exact ⟨_, rfl, .none plan.direction (Outcome.marks_pending _) rfl⟩
  · exact (ends_runMode_recorded hhooks).mono (fun _ _ h => ⟨_, rowsOf_start plan, h⟩)
      fun _ _ h => ⟨_, rowsOf_start plan, h⟩

theorem Halted.committed {direction : Direction} {scripts : List Script} {report : Report}
    {before after : Option Table} (h : Halted direction scripts report.outcomes before after) :
    report.committed <+: scripts.map Script.id ∧
      direction.Moves report.committed ((Table.rowsOf before).map Change.id)
        ((Table.rowsOf after).map Change.id) := by
  -- the committed scripts of the report are the first part that was done
  obtain ⟨done, rest, rfl, hmarks, hrecorded⟩ := h
  rw [Report.committed_of_marks hmarks]
  exact ⟨⟨rest.map Script.id, List.map_append.symm⟩, hrecorded.moves⟩

/-- A run moves the ids that its report calls committed, which are the first ones of its plan. -/
theorem run_execute_moves (plan : Plan) (hhooks : runner.hooks.KeepLedger runner.ledger.table) :
    let run := (runner.execute plan).run world
    run.1.1.direction = plan.direction ∧ run.1.1.committed <+: plan.ids ∧
      plan.direction.Moves run.1.1.committed (runner.ids world) (runner.ids run.2) := by
  have hhalted : ∀ {report : Report} {after : World},
      (∃ base, Table.rowsOf base = Table.rowsOf (runner.seen {} world) ∧
        Halted plan.direction plan.scripts report.outcomes base (runner.seen {} after)) →
      report.committed <+: plan.ids ∧
        plan.direction.Moves report.committed (runner.ids world) (runner.ids after) := by
    rintro report after ⟨base, hbase, h⟩
    obtain ⟨hfirst, hmoves⟩ := h.committed
    rw [hbase] at hmoves
    exact ⟨hfirst, hmoves⟩
  by_cases hidle : plan.isEmpty = true
  · rw [execute_idle hidle]
    exact ⟨rfl, List.nil_prefix, .nil _ _⟩
  · have hends : Ends (runner.runScripts plan) world _ _ :=
      ends_runScripts_recorded plan hhooks
    rw [execute_busy (by simpa using hidle), Procedure.run_bind]
    rcases hrun : (runner.runScripts plan).run.run world with ⟨⟨outcomes, failure⟩ | outcomes, now⟩
    · have hstopped := hends.of_error hrun
      -- the abort script only reaches the log
      have habort : runner.seen {}
          (if plan.direction.isUp then (runner.abort.run now).2 else now) = runner.seen {} now := by
        split
        · rw [run_abort]
          rfl
        · rfl
      dsimp only
      rw [run_conclude_error]
      refine ⟨rfl, hhalted ?_⟩
      rw [habort]
      exact hstopped
    · obtain ⟨base, hbase, hcompleted⟩ := hends.of_ok hrun
      exact ⟨rfl, hhalted ⟨base, hbase, hcompleted.halted⟩⟩

/-- A run that succeeds has recorded all scripts of its plan. -/
theorem ends_run_recorded (plan : Plan) (hhooks : runner.hooks.KeepLedger runner.ledger.table) :
    Ends (runner.run plan) world
      (fun report after => report.committed = plan.ids ∧ ∃ base,
        Table.rowsOf base = Table.rowsOf (runner.seen {} world) ∧
          Recorded plan.direction plan.scripts base (runner.seen {} after))
      (fun _ _ => True) := by
  rw [ends_run]
  split
  · rename_i hidle
    have hnone : plan.scripts = [] := List.isEmpty_iff.mp hidle
    rw [Plan.ids, hnone]
    exact ⟨rfl, _, rfl, .nil plan.direction _⟩
  · refine (ends_runScripts_recorded plan hhooks).mono (fun outcomes after h => ?_)
      fun _ _ _ => trivial
    obtain ⟨base, hbase, hmarks, hrecorded⟩ := h
    have hall : outcomes.map Outcome.mark =
        Script.marks true plan.scripts ++ Script.marks false [] := by
      simpa [Script.marks] using hmarks
    exact ⟨Report.committed_of_marks hall, base, hbase, hrecorded⟩

end Runner

end Migrations

import Migrations.Proofs.Database.View
import Migrations.Proofs.Hook.Work
import Migrations.Proofs.Run.Execution

/-!
# Scripts in Transactions

What the execution of one script leaves in the database: the statements of the hooks around it and
its own in the log and its row in the ledger when it is committed, and nothing when it fails.  As
long as its transaction is open, it is the database that the transaction sees that changes so.  The
hooks are supposed to do nothing but execute statements.

## Main statements

- `Runner.ends_apply`: what a script adds to the transaction that it is executed in.
- `Runner.ends_applyAlone`: a script in a transaction of its own is committed as a whole or not at
  all.
- `Runner.Effect.append`: what two parts of a run leave adds up.
-/

namespace Migrations

open Attempt

/-! ## Circumstances -/

/-- The worlds differ in nothing but ledger tables, log and readings of the clock. -/
structure World.SameCircumstances (before after : World) : Prop where
  home : after.home = before.home
  clock : after.clock = before.clock
  locks : after.database.locks = before.database.locks
  failures : after.database.failures = before.database.failures
  unreachable : after.database.unreachable = before.database.unreachable
  lockStuck : after.database.lockStuck = before.database.lockStuck

namespace World.SameCircumstances

theorem refl (world : World) : world.SameCircumstances world := ⟨rfl, rfl, rfl, rfl, rfl, rfl⟩

theorem trans {a b c : World} (hab : a.SameCircumstances b) (hbc : b.SameCircumstances c) :
    a.SameCircumstances c where
  home := hbc.home.trans hab.home
  clock := hbc.clock.trans hab.clock
  locks := hbc.locks.trans hab.locks
  failures := hbc.failures.trans hab.failures
  unreachable := hbc.unreachable.trans hab.unreachable
  lockStuck := hbc.lockStuck.trans hab.lockStuck

end World.SameCircumstances

/-- The world that a transaction sees, which is the one that its commit would leave. -/
def World.commit (world : World) (tx : Transaction) : World :=
  { world with database := tx.commit world.database }

/-- A commit leaves the circumstances as they are. -/
theorem World.SameCircumstances.commit {before after : World} (h : before.SameCircumstances after)
    (tx result : Transaction) : (before.commit tx).SameCircumstances (after.commit result) := by
  unfold World.commit
  rw [tx.commit_eq, result.commit_eq]
  exact ⟨h.home, h.clock, h.locks, h.failures, h.unreachable, h.lockStuck⟩

@[simp] theorem Change.stamped_id (change : Change) (time : Instant) :
    (change.stamped time).id = change.id := rfl

@[simp] theorem Script.change_id (script : Script) : script.change.id = script.id := rfl

namespace Runner

variable {runner : Runner} {world : World}

/-! ## Hooks -/

/-- The statements that the hook at a slot executes; none without a hook. -/
def hookOutcome (runner : Runner) (slot : HookSlot) (change? : Option (Change × Nat))
    (world : World) : Except HookFault (List String) :=
  match runner.hooks.find? slot with
  | none => .ok []
  | some hook => hook.outcome (runner.hookContext slot change?) world

/-- Those statements, none of which are left when the hook fails. -/
def hookStatements (runner : Runner) (slot : HookSlot) (change? : Option (Change × Nat))
    (world : World) : List String :=
  match runner.hookOutcome slot change? world with
  | .ok statements => statements
  | .error _ => []

theorem ends_callHook (hhooks : runner.hooks.OnlyExecute) (slot : HookSlot)
    (change? : Option (Change × Nat)) (tx : Transaction) {now : World}
    (hsame : world.SameCircumstances now) :
    Ends (runner.callHook slot change? tx) now
      (fun result after => after = now ∧
        result = tx.withStatements (runner.hookStatements slot change? world))
      (fun _ after => after = now ∧ runner.hookStatements slot change? world = []) := by
  rw [ends_callHook_eq, hookStatements, hookOutcome]
  cases hfind : runner.hooks.find? slot with
  | none => exact ⟨rfl, (Transaction.withStatements_nil tx).symm⟩
  | some hook =>
    have hrun := (hhooks slot hook hfind).run_call (runner.hookContext slot change?) tx
      hsame.home hsame.failures
    dsimp only
    unfold Ends
    rw [hrun]
    cases hook.outcome (runner.hookContext slot change?) world with
    | error fault => exact ⟨rfl, rfl⟩
    | ok statements => exact ⟨rfl, rfl⟩

/-! ## The ledger -/

/-- What committed scripts do to a ledger table: applied ones add a row each, with a time, and
undone ones remove theirs. -/
def Recorded (direction : Direction) (done : List Script) (before after : Option Table) : Prop :=
  after.isSome = before.isSome ∧
  match direction with
  | .up => ∃ times : List Instant, times.length = done.length ∧
      (Table.rowsOf after).Perm (Table.rowsOf before ++
        List.zipWith (fun script time => script.change.stamped time) done times)
  | .down => Table.rowsOf after =
      (Table.rowsOf before).filter (fun row => row.id ∉ done.map Script.id)

theorem Recorded.nil (direction : Direction) (table? : Option Table) :
    Recorded direction [] table? table? := by
  refine ⟨rfl, ?_⟩
  cases direction with
  | up => exact ⟨[], rfl, by simp⟩
  | down => exact (List.filter_eq_self.mpr (by simp)).symm

theorem Recorded.append {direction : Direction} {first second : List Script}
    {a b c : Option Table} (hab : Recorded direction first a b)
    (hbc : Recorded direction second b c) : Recorded direction (first ++ second) a c := by
  refine ⟨hbc.1.trans hab.1, ?_⟩
  cases direction with
  | up =>
    obtain ⟨times, hlength, hperm⟩ := hab.2
    obtain ⟨times', hlength', hperm'⟩ := hbc.2
    refine ⟨times ++ times', by simp [hlength, hlength'], ?_⟩
    -- the new rows of the second part come after those of the first
    rw [List.zipWith_append hlength.symm, ← List.append_assoc]
    exact hperm'.trans (hperm.append_right _)
  | down =>
    have hfirst : Table.rowsOf b =
      (Table.rowsOf a).filter (fun row => row.id ∉ first.map Script.id) := hab.2
    have hsecond : Table.rowsOf c =
      (Table.rowsOf b).filter (fun row => row.id ∉ second.map Script.id) := hbc.2
    show Table.rowsOf c = _
    -- a row is left when neither part removed it
    rw [hsecond, hfirst, List.filter_filter]
    refine List.filter_congr fun row _ => ?_
    simp [List.map_append, List.mem_append, Bool.and_comm]

/-- A new row in the table that is there. -/
theorem recorded_insert {script : Script} {table : Table} (time : Instant)
    (hnew : script.id ∉ table.ids) :
    Recorded .up [script] (some table) (some (table.insert (script.change.stamped time))) := by
  refine ⟨rfl, [time], rfl, ?_⟩
  refine (Table.rows_insert_perm hnew).trans ?_
  exact List.perm_append_singleton _ _ |>.symm

theorem recorded_erase (script : Script) (table : Table) :
    Recorded .down [script] (some table) (some (table.erase script.id)) := by
  refine ⟨rfl, ?_⟩
  show table.rows.filter _ = table.rows.filter _
  simp

/-! ## Effects -/

/-- What a part of a run leaves: the scripts that it committed are recorded in its ledger, its
statements stand at the end of the log, and nothing else has changed. -/
structure Effect (runner : Runner) (direction : Direction) (done : List Script)
    (statements : List String) (before after : World) : Prop where
  circumstances : before.SameCircumstances after
  ledger : Recorded direction done (before.database.table? runner.ledger.table)
    (after.database.table? runner.ledger.table)
  others : ∀ name, name ≠ runner.ledger.table →
    after.database.table? name = before.database.table? name
  log : after.database.log = before.database.log ++ statements

namespace Effect

variable {direction : Direction}

/-- When the database stays as it is, nothing is left. -/
theorem nothing (direction : Direction) {before after : World}
    (hsame : before.SameCircumstances after) (hdatabase : after.database = before.database) :
    runner.Effect direction [] [] before after where
  circumstances := hsame
  ledger := by rw [hdatabase]; exact Recorded.nil direction _
  others := fun name _ => by rw [hdatabase]
  log := by rw [hdatabase, List.append_nil]

/-- What is left by one part of a run and then by another. -/
theorem append {first second : List Script} {statements more : List String} {a b c : World}
    (hab : runner.Effect direction first statements a b)
    (hbc : runner.Effect direction second more b c) :
    runner.Effect direction (first ++ second) (statements ++ more) a c where
  circumstances := hab.circumstances.trans hbc.circumstances
  ledger := hab.ledger.append hbc.ledger
  others := fun name hname => (hbc.others name hname).trans (hab.others name hname)
  log := by rw [hbc.log, hab.log, List.append_assoc]

/-- Statements change nothing of what a transaction sees but the log. -/
theorem add_statements (direction : Direction) {before after : World}
    (hsame : before.SameCircumstances after) (hdatabase : after.database = before.database)
    (tx : Transaction) (statements : List String) :
    runner.Effect direction [] statements (before.commit tx)
      (after.commit (tx.withStatements statements)) where
  circumstances := hsame.commit _ _
  ledger := by
    simp only [World.commit, Transaction.commit_withStatements, hdatabase]
    exact Recorded.nil direction _
  others := fun name _ => by
    simp only [World.commit, Transaction.commit_withStatements, hdatabase]
    rfl
  log := by simp [World.commit, hdatabase]

/-- A row changes nothing of what a transaction sees but the ledger. -/
theorem add_row {script : Script} {before after : World} {tx : Transaction} {write : Write}
    (hsame : before.SameCircumstances after) (hdatabase : after.database = before.database)
    (hstatement : write.statement? = none)
    (hledger : Recorded direction [script]
      ((tx.commit before.database).table? runner.ledger.table)
      (write.onTable runner.ledger.table
        ((tx.commit before.database).table? runner.ledger.table)))
    (hothers : ∀ name table?, name ≠ runner.ledger.table → write.onTable name table? = table?) :
    runner.Effect direction [script] [] (before.commit tx) (after.commit (tx.add write)) := by
  have htable : ∀ name, ((tx.add write).commit after.database).table? name =
      write.onTable name ((tx.commit before.database).table? name) := by
    intro name
    rw [Transaction.commit_add, Write.table?_apply, hdatabase]
  refine ⟨hsame.commit _ _, ?_, fun name hname => ?_, ?_⟩
  · exact (htable _).symm ▸ hledger
  · exact (htable name).trans (hothers name _ hname)
  · show ((tx.add write).commit after.database).log = (tx.commit before.database).log ++ []
    rw [Transaction.commit_add, Write.apply_eq, hdatabase]
    simp [hstatement]

end Effect

/-! ## Open transactions -/

/-- What a part of a run adds to an open transaction: what the transaction sees changes, and outside
of it nothing does. -/
structure Collected (runner : Runner) (direction : Direction) (done : List Script)
    (statements : List String) (before : World) (tx : Transaction) (after : World)
    (result : Transaction) : Prop where
  circumstances : before.SameCircumstances after
  database : after.database = before.database
  fits : result.Fits before.database
  effect : runner.Effect direction done statements (before.commit tx) (after.commit result)

namespace Collected

variable {direction : Direction} {done more : List Script} {first second : List String}
  {a b c : World} {tx t u : Transaction}

theorem append (hab : runner.Collected direction done first a tx b t)
    (hbc : runner.Collected direction more second b t c u) :
    runner.Collected direction (done ++ more) (first ++ second) a tx c u where
  circumstances := hab.circumstances.trans hbc.circumstances
  database := hbc.database.trans hab.database
  fits := hab.database ▸ hbc.fits
  effect := hab.effect.append hbc.effect

theorem statements (runner : Runner) (direction : Direction) (now : World)
    (hfits : tx.Fits now.database) (statements : List String) :
    runner.Collected direction [] statements now tx now (tx.withStatements statements) where
  circumstances := .refl now
  database := rfl
  fits := by
    intro table row hmem
    rcases List.mem_append.mp hmem with hmem | hmem
    · exact hfits table row hmem
    · simp at hmem
  effect := .add_statements direction (.refl now) rfl tx statements

/-- What is given up while a transaction is open leaves nothing. -/
theorem nothing (h : runner.Collected direction done first a tx b t) :
    runner.Effect direction [] [] a b := .nothing direction h.circumstances h.database

end Collected

/-! ## One script -/

/-- A row is added to what the transaction sees, or the ledger refuses it. -/
theorem ends_writeLedger (direction : Direction) (script : Script) {tx : Transaction} {now : World}
    (hfits : tx.Fits now.database) :
    Ends (runner.writeLedger direction script.change tx) now
      (fun result after => runner.Collected direction [script] [] now tx after result)
      (fun _ after => runner.Effect direction [] [] now after) := by
  cases direction with
  | up =>
    -- the reading of the clock is taken even when the row is refused then
    have hsame : now.SameCircumstances { now with readings := now.readings + 1 } :=
      ⟨rfl, rfl, rfl, rfl, rfl, rfl⟩
    rw [writeLedger, ends_map, Ledger.ends_record]
    dsimp only
    rw [hfits.insert_eq]
    cases hreach : (tx.commit now.database).reach runner.ledger.table with
    | error fault => exact Effect.nothing .up hsame rfl
    | ok table =>
      have htable := (Database.reach_eq_ok.mp hreach).2
      dsimp only
      by_cases hseen : table.contains script.id = true
      · rw [Change.stamped_id, Script.change_id, if_pos hseen]
        exact Effect.nothing .up hsame rfl
      · rw [Change.stamped_id, Script.change_id, if_neg hseen]
        refine ⟨hsame, rfl, hfits.add fun name row hwrite => ?_, ?_⟩
        · cases hwrite
          exact hfits.isSome_table? hreach
        · refine Effect.add_row hsame rfl rfl ?_ fun name table? hname => ?_
          · rw [htable, Write.onTable, if_pos rfl]
            exact recorded_insert _ fun hmem => hseen (Table.contains_iff.mpr hmem)
          · rw [Write.onTable, if_neg (Ne.symm hname)]
  | down =>
    rw [writeLedger, Ledger.ends_remove, hfits.delete_eq]
    cases hreach : (tx.commit now.database).reach runner.ledger.table with
    | error fault => exact Effect.nothing .down (.refl now) rfl
    | ok table =>
      have htable := (Database.reach_eq_ok.mp hreach).2
      refine ⟨.refl now, rfl, hfits.add (by simp), ?_⟩
      refine Effect.add_row (.refl now) rfl rfl ?_ fun name table? hname => ?_
      · rw [htable, Write.onTable, if_pos rfl]
        exact recorded_erase script table
      · rw [Write.onTable, if_neg (Ne.symm hname)]

/-- The statements of a script at a position of the run and of the hooks around it. -/
def scriptStatements (runner : Runner) (direction : Direction) (world : World)
    (entry : Script × Nat) : List String :=
  runner.hookStatements (.beforeEach direction) (some (entry.1.change, entry.2)) world ++
    (match entry.1.text direction with
      | .ok text => runner.rules.statements text
      | .error _ => []) ++
    runner.hookStatements (.afterEach direction) (some (entry.1.change, entry.2)) world

/-- A script adds its statements, those of the hooks around it and its row to what the transaction
sees, or it fails. -/
theorem ends_apply (hhooks : runner.hooks.OnlyExecute) (direction : Direction) (sequence : Nat)
    {script : Script} {text : String} (htext : script.text direction = .ok text) {tx : Transaction}
    {now : World} (hsame : world.SameCircumstances now) (hfits : tx.Fits now.database) :
    Ends (runner.apply direction sequence script text tx) now
      (fun result after => runner.Collected direction [script]
        (runner.scriptStatements direction world (script, sequence)) now tx after result.1)
      (fun _ after => runner.Effect direction [] [] now after) := by
  have hnothing : runner.Effect direction [] [] now now := Effect.nothing direction (.refl now) rfl
  rw [ends_apply_eq]
  -- every part adds its statements to the transaction and leaves the world as it is
  refine (ends_callHook hhooks _ _ _ hsame).mono (fun t after h => ?_)
    (fun _ after h => h.1 ▸ hnothing)
  obtain ⟨rfl, rfl⟩ := h
  have hbefore := Collected.statements runner direction after hfits
    (runner.hookStatements (.beforeEach direction) (some (script.change, sequence)) world)
  split
  · have htexts := hbefore.append (.statements runner direction after hbefore.fits
      (runner.rules.statements text))
    refine (ends_callHook hhooks _ _ _ hsame).mono (fun u now h => ?_)
      (fun _ after h => h.1 ▸ hnothing)
    obtain ⟨rfl, rfl⟩ := h
    have hafter := htexts.append (.statements runner direction now htexts.fits
      (runner.hookStatements (.afterEach direction) (some (script.change, sequence)) world))
    refine (ends_writeLedger direction script hafter.fits).mono (fun v last h => ?_)
      fun _ _ h => h
    simpa only [scriptStatements, htext, List.append_nil, List.nil_append] using hafter.append h
  · exact hnothing

/-- A script in a transaction of its own is committed as a whole, or nothing is left of it. -/
theorem ends_applyAlone (hhooks : runner.hooks.OnlyExecute) (direction : Direction)
    (sequence : Nat) (script : Script) {now : World} (hsame : world.SameCircumstances now) :
    Ends (runner.applyAlone direction sequence script) now
      (fun _ after => runner.Effect direction [script]
        (runner.scriptStatements direction world (script, sequence)) now after)
      (fun _ after => runner.Effect direction [] [] now after) := by
  rw [ends_applyAlone_eq]
  cases htext : script.text direction with
  | error failure => exact Effect.nothing direction (.refl now) rfl
  | ok text =>
    exact (ends_apply hhooks direction sequence htext hsame (Transaction.fits_empty _)).mono
      (fun _ _ h => h.effect) fun _ _ h => h

end Runner

end Migrations

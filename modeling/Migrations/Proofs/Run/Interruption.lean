import Migrations.Proofs.Plan
import Migrations.Proofs.Run.Ledger
import Migrations.Proofs.Run.Outcome

/-!
# What Stops a Run

A run whose scripts have the section that they need, and whose ledger is there and takes their rows,
is stopped by a statement that fails, by a hook that fails, or by a database that is cut off, and by
nothing else.  The hooks are supposed to write no rows of the ledger.

## Main statements

- `Runner.ends_apply_ready`: what holds before a script holds before the next one.
- `Runner.ends_run_ready`: so in either mode nothing else stops the run.
-/

namespace Migrations

open Attempt

/-! ## Interruptions -/

/-- The failure of a statement that has a failing pattern in it or of one of the hooks, or any
failure when the database is cut off. -/
inductive Failure.Interrupts (hooks : Hooks) (db : Database) : Failure → Prop where
  | statement {id : ChangeId} {pattern sql : String} (h : db.failing? sql = some pattern) :
    Interrupts hooks db (.execution id (.database (.statement pattern sql)))
  | hook {slot : HookSlot} {hook : Hook} (h : hooks.find? slot = some hook)
    (id? : Option ChangeId) (fault : HookFault) :
    Interrupts hooks db (.hook hook.name slot.phase id? fault)
  | cutOff {failure : Failure} (h : db.unreachable = true) : Interrupts hooks db failure

/-- Of a database only the failing patterns and the reach decide about interruptions. -/
theorem Failure.Interrupts.congr {hooks : Hooks} {db other : Database} {failure : Failure}
    (h : failure.Interrupts hooks db) (hfailures : other.failures = db.failures)
    (hreach : other.unreachable = db.unreachable) : failure.Interrupts hooks other := by
  cases h with
  | statement hfails =>
    refine .statement ?_
    rw [Database.failing?, hfailures]
    exact hfails
  | hook hfind id? fault => exact .hook hfind id? fault
  | cutOff hcut => exact .cutOff (hreach.trans hcut)

/-- Where no statement can fail, no hook is called and the database is there, nothing interrupts. -/
theorem Failure.not_interrupts {hooks : Hooks} {db : Database} {failure : Failure}
    (hnone : ∀ slot, hooks.find? slot = none) (hfailures : db.failures = [])
    (hreach : db.unreachable = false) : ¬ failure.Interrupts hooks db := by
  rintro (hfails | ⟨hfind, -, -⟩ | hcut)
  · simp [Database.failing?, hfailures] at hfails
  · rw [hnone] at hfind
    cases hfind
  · rw [hreach] at hcut
    cases hcut

theorem Access.failing_of_firstFault? {db : Database} {statements : List String}
    {fault : DatabaseFault} (h : firstFault? db statements = some fault) :
    ∃ pattern sql, db.failing? sql = some pattern ∧ fault = .statement pattern sql := by
  obtain ⟨sql, -, hsql⟩ := List.exists_of_findSome?_eq_some h
  obtain ⟨pattern, hpattern, hfault⟩ := Option.map_eq_some_iff.mp hsql
  exact ⟨pattern, sql, hpattern, hfault.symm⟩

namespace Runner

variable {runner : Runner} {direction : Direction} {world : World} {tx : Transaction}

/-! ## Scripts that are ready -/

/-- The scripts have the section for the direction, and the ledger can take their rows or lose
them. -/
structure Ready (runner : Runner) (direction : Direction) (scripts : List Script)
    (tx : Transaction) (world : World) : Prop where
  there : (world.database.table? runner.ledger.table).isSome
  text : ∀ script ∈ scripts, ∃ text, script.text direction = .ok text
  nodup : direction = .up → (scripts.map Script.id).Nodup
  fresh : direction = .up → ∀ id ∈ scripts.map Script.id,
    id ∉ (Table.rowsOf (runner.seen tx world)).map Change.id

namespace Ready

variable {scripts rest : List Script} {script : Script}

/-- What is ready stays ready when the same is seen of the ledger. -/
theorem congr {next : Transaction} {after : World} (h : runner.Ready direction scripts tx world)
    (htable : runner.Untouched world after)
    (hseen : runner.seen next after = runner.seen tx world) :
    runner.Ready direction scripts next after where
  there := by rw [htable]; exact h.there
  text := h.text
  nodup := h.nodup
  fresh := by rw [hseen]; exact h.fresh

theorem withStatements (h : runner.Ready direction scripts tx world) (statements : List String) :
    runner.Ready direction scripts (tx.withStatements statements) world :=
  h.congr (.refl runner world) (seen_withStatements _ _)

/-- After a commit the scripts are ready for a transaction of their own. -/
theorem commit (h : runner.Ready direction scripts tx world) :
    runner.Ready direction scripts {}
      { world with database := tx.commit world.database } where
  there := by
    show ((tx.commit world.database).table? runner.ledger.table).isSome
    obtain ⟨table, htable⟩ := Option.isSome_iff_exists.mp h.there
    obtain ⟨rows, hrows, -⟩ := Transaction.onTable_eq_some runner.ledger.table tx.writes table
    rw [Transaction.table?_commit, htable, Transaction.onTable, hrows]
    rfl
  text := h.text
  nodup := h.nodup
  fresh := by rw [seen_commit]; exact h.fresh

/-- When the first script is recorded, the rest is ready. -/
theorem next {then' : Transaction} {after : World}
    (h : runner.Ready direction (script :: rest) tx world)
    (htable : runner.Untouched world after)
    (hrecorded : Recorded direction [script] (runner.seen tx world) (runner.seen then' after)) :
    runner.Ready direction rest then' after where
  there := by rw [htable]; exact h.there
  text := fun other hmem => h.text other (List.mem_cons_of_mem _ hmem)
  nodup := fun hup => (List.nodup_cons.mp (h.nodup hup)).2
  fresh := by
    intro hup id hid hmem
    subst hup
    have hmoves := (hrecorded.moves id).mp hmem
    -- the id was seen before, or it is the one of the first script; neither can be
    rcases hmoves with hbefore | hfirst
    · exact h.fresh rfl id (List.mem_cons_of_mem _ hid) hbefore
    · have hne := (List.nodup_cons.mp (h.nodup rfl)).1
      have hsame : id = script.id := by simpa using hfirst
      exact hne (hsame ▸ hid)

/-- Scripts that can be undone are ready when the ledger has rows. -/
theorem down (hrows : Table.rowsOf (world.database.table? runner.ledger.table) ≠ [])
    (htext : ∀ script ∈ scripts, script.isReversible) :
    runner.Ready .down scripts {} world where
  there := by
    cases htable : world.database.table? runner.ledger.table with
    | some table => rfl
    | none => exact absurd (by rw [htable]; rfl) hrows
  text := by
    intro script hmem
    obtain ⟨text, htext⟩ := Option.isSome_iff_exists.mp (htext script hmem)
    exact ⟨text, by rw [Script.text, htext]⟩
  nodup := fun h => nomatch h
  fresh := fun h => nomatch h

/-- New scripts are ready once the ledger's table is there. -/
theorem up {plan : Plan} (hup : plan.direction = .up)
    (hsuits : plan.Suits (runner.ids world)) :
    runner.Ready .up plan.scripts {} (runner.start plan world) where
  there := by
    unfold start
    rw [if_pos (by rw [hup]; rfl)]
    show ((world.database.createTable _).table? _).isSome
    rw [Database.table?_createTable, if_pos rfl]
    rfl
  text := fun script _ => ⟨script.up, rfl⟩
  nodup := fun _ => hsuits.nodup
  fresh := by
    intro _ id hid hmem
    rw [rowsOf_start, map_id_seen] at hmem
    have hdown := (hsuits.side id hid).mp hmem
    rw [hup] at hdown
    cases hdown

end Ready

/-! ## One script -/

theorem ends_callHook_ready {scripts : List Script}
    (hhooks : runner.hooks.KeepLedger runner.ledger.table)
    (h : runner.Ready direction scripts tx world) (slot : HookSlot)
    (change? : Option (Change × Nat)) :
    Ends (runner.callHook slot change? tx) world
      (fun result after => runner.Ready direction scripts result after)
      (fun failure after => failure.Interrupts runner.hooks after.database) := by
  refine ((ends_callHook_failure slot change? tx).and
    (ends_callHook_untouched hhooks slot change? tx)).mono
    (fun result after hend => h.congr hend.2.1 hend.2.2) ?_
  rintro _ _ ⟨⟨hook, fault, hfind, rfl⟩, -⟩
  exact .hook hfind _ _

/-- A ledger that is ready for a script does not refuse its row, unless it is cut off. -/
theorem ends_writeLedger_ready {script : Script} {rest : List Script}
    (h : runner.Ready direction (script :: rest) tx world) :
    Ends (runner.writeLedger direction script.change tx) world
      (fun result after => runner.Ready direction rest result after)
      (fun failure after => failure.Interrupts runner.hooks after.database) := by
  refine ((ends_writeLedger_row script tx).and
    (ends_writeLedger_recorded direction script tx)).mono
    (fun result after hend => h.next hend.2.1 hend.2.2) fun failure after hend => ?_
  rcases hend.2.2 with ⟨fault, hfault⟩ | ⟨hup, hheld⟩
  -- the table is there, so a database without reach is what is left
  · obtain ⟨table, htable⟩ := Option.isSome_iff_exists.mp h.there
    cases hreach : world.database.unreachable with
    | true => exact .cutOff (by rw [hend.1.1, hreach])
    | false =>
      rw [Database.reach_eq_ok.mpr ⟨hreach, htable⟩] at hfault
      cases hfault
  · exact absurd hheld (h.fresh hup script.id List.mem_cons_self)

/-- A script that is ready is interrupted, or else the rest is ready then. -/
theorem ends_apply_ready {script : Script} {rest : List Script}
    (hhooks : runner.hooks.KeepLedger runner.ledger.table)
    (h : runner.Ready direction (script :: rest) tx world) (sequence : Nat) (text : String) :
    Ends (runner.apply direction sequence script text tx) world
      (fun result after => runner.Ready direction rest result.1 after)
      (fun failure after => failure.Interrupts runner.hooks after.database) := by
  rw [ends_apply_eq]
  refine (ends_callHook_ready hhooks h _ _).mono (fun t now ht => ?_) fun _ _ h => h
  split
  · refine (ends_callHook_ready hhooks (ht.withStatements _) _ _).mono (fun u then' hu => ?_)
      fun _ _ h => h
    exact ends_writeLedger_ready hu
  · rename_i fault hfault
    obtain ⟨pattern, sql, hfails, rfl⟩ := Access.failing_of_firstFault? hfault
    exact .statement hfails

/-! ## The run -/

theorem ends_callHookAlone_ready {scripts : List Script}
    (hhooks : runner.hooks.KeepLedger runner.ledger.table)
    (h : runner.Ready direction scripts {} world) (slot : HookSlot) :
    Ends (runner.callHookAlone slot) world
      (fun _ after => runner.Ready direction scripts {} after)
      (fun failure after => failure.Interrupts runner.hooks after.database) := by
  rw [ends_callHookAlone_eq]
  split
  · exact (ends_callHook_ready hhooks h slot none).mono (fun _ _ h => h.commit) fun _ _ h => h
  · exact h

theorem ends_applyOneByOne_ready (hhooks : runner.hooks.KeepLedger runner.ledger.table)
    (scripts : List Script) (sequence : Nat) (h : runner.Ready direction scripts {} world) :
    Ends (runner.applyOneByOne direction sequence scripts) world (fun _ _ => True)
      (fun failure after => failure.2.Interrupts runner.hooks after.database) := by
  induction scripts generalizing sequence world with
  | nil =>
    rw [ends_applyOneByOne_nil]
    exact (ends_callHookAlone_ready hhooks h _).mono (fun _ _ _ => trivial) fun _ _ h => h
  | cons script rest ih =>
    obtain ⟨text, htext⟩ := h.text script List.mem_cons_self
    rw [ends_applyOneByOne_cons, ends_applyAlone_eq, htext]
    refine (ends_apply_ready hhooks h sequence text).mono (fun result now hnow => ?_)
      fun _ _ h => h
    exact (ih (sequence + 1) hnow.commit).mono (fun _ _ _ => trivial) fun _ _ h => h

theorem ends_applyTogether_ready (hhooks : runner.hooks.KeepLedger runner.ledger.table)
    (scripts : List Script) (sequence : Nat) (h : runner.Ready direction scripts tx world) :
    Ends (runner.applyTogether direction sequence scripts tx) world (fun _ _ => True)
      (fun failure after => failure.2.Interrupts runner.hooks after.database) := by
  induction scripts generalizing sequence tx world with
  | nil =>
    rw [ends_applyTogether_nil]
    exact (ends_callHook_ready hhooks h _ none).mono (fun _ _ _ => trivial) fun _ _ h => h
  | cons script rest ih =>
    obtain ⟨text, htext⟩ := h.text script List.mem_cons_self
    rw [ends_applyTogether_cons, htext]
    refine (ends_apply_ready hhooks h sequence text).mono (fun result now hnow => ?_)
      fun _ _ h => h
    exact (ih (sequence + 1) hnow).mono (fun _ _ _ => trivial) fun _ _ h => h

/-- In either mode scripts that are ready are stopped by a statement or a hook, and by nothing
else. -/
theorem ends_runMode_ready {plan : Plan} (hhooks : runner.hooks.KeepLedger runner.ledger.table)
    (h : runner.Ready plan.direction plan.scripts {} world) :
    Ends (runner.runMode plan) world (fun _ _ => True)
      (fun failure after => failure.2.Interrupts runner.hooks after.database) := by
  unfold runMode
  split
  · rw [ends_runPerScript_eq]
    refine (ends_callHookAlone_ready hhooks h _).mono (fun _ now hnow => ?_) fun _ _ h => h
    exact ends_applyOneByOne_ready hhooks plan.scripts 0 hnow
  · rw [ends_runPerPlan_eq]
    refine (ends_callHook_ready hhooks h _ none).mono (fun t now hnow => ?_) fun _ _ h => h
    exact ends_applyTogether_ready hhooks plan.scripts 0 hnow

/-- A plan whose scripts are ready once the ledger's table is there is interrupted, or else its run
succeeds. -/
theorem ends_run_ready {plan : Plan} (hhooks : runner.hooks.KeepLedger runner.ledger.table)
    (h : runner.Ready plan.direction plan.scripts {} (runner.start plan world)) :
    Ends (runner.run plan) world (fun _ _ => True)
      (fun failure after => failure.Interrupts runner.hooks after.database) := by
  rw [ends_run]
  split
  · trivial
  · rw [ends_runScripts]
    split
    -- a database that cannot be asked for the table is cut off
    · rename_i hcut
      rw [if_pos hcut.1, run_abort]
      exact .cutOff hcut.2
    · refine (ends_runMode_ready hhooks h).mono (fun _ _ _ => trivial) fun failure after h => ?_
      split
      · rw [run_abort]
        exact h.congr rfl rfl
      · exact h

end Runner

end Migrations

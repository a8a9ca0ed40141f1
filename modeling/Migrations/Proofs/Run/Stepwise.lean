import Migrations.Proofs.Run.Ledger
import Migrations.Proofs.Run.Modes
import Migrations.Proofs.Run.PerScript
import Migrations.Proofs.Run.Steps

/-!
# Runs in Parts

A run whose hooks are around its scripts only, act through their transactions and take no account of
the position of a script, can be cut into a run of its first scripts and a run of the others.  In
transactions of their own the scripts do not notice.  In one transaction they notice no more than
that a part of what they see is committed already.

## Main statements

- `Procedure.run_of_keeps`: such runs change nothing but ledger tables, log and clock.
- `Runner.ends_applyOneByOne_renumber`: scripts do the same from another position on.
- `Runner.runMode_append`: the scripts of a run in two parts.
-/

namespace Migrations

open Attempt

/-! ## Steps that keep the circumstances -/

/-- The step changes nothing but ledger tables, log and readings of the clock. -/
def Keeps (_ : Event) (update : World → World) : Prop :=
  ∀ world : World, world.SameCircumstances (update world)

theorem Procedure.run_of_keeps {α : Type} {procedure : Procedure α}
    (h : procedure.EveryStep Keeps) (world : World) :
    world.SameCircumstances (procedure.run world).2 := by
  induction procedure generalizing world with
  | done a => exact .refl world
  | step event update next ih => exact (h.1 world).trans (ih world (h.2 world) (update world))

theorem ordinary_keeps : Ordinary Keeps where
  look _ world := .refl world
  now _ := ⟨rfl, rfl, rfl, rfl, rfl, rfl⟩
  createTable name world := by
    dsimp only
    rw [Database.createTable_eq]
    exact ⟨rfl, rfl, rfl, rfl, rfl, rfl⟩
  commit tx world := (World.SameCircumstances.refl world).commit {} tx

/-- Hooks that act through their transactions keep the circumstances. -/
theorem Hooks.Confined.keep {hooks : Hooks} (h : hooks.Confined) : hooks.Take Keeps := by
  refine h.take ordinary_keeps fun slot context => ?_
  intro world
  exact .refl world

theorem Attempt.Takes.ends_same {ε α : Type} {attempt : Attempt ε α} (h : attempt.Takes Keeps)
    (world : World) :
    Ends attempt world (fun _ after => world.SameCircumstances after)
      (fun _ after => world.SameCircumstances after) := by
  have hsame := Procedure.run_of_keeps h world
  unfold Ends
  revert hsame
  rcases attempt.run.run world with ⟨_ | _, _⟩ <;> exact id

/-! ## Positions of scripts -/

/-- Over these files the hook does the same at every position of a run. -/
def Hook.Unnumbered (hook : Hook) (home : Home) : Prop :=
  ∀ (context : HookContext) (sequence : Nat) (tx : Transaction) (world : World),
    world.home = home →
    (hook.call { context with sequence := sequence } (some tx)).run.run world =
      (hook.call context (some tx)).run.run world

/-- Over these files the hooks do the same at every position of a run. -/
def Hooks.Unnumbered (hooks : Hooks) (home : Home) : Prop :=
  ∀ slot hook, hooks.find? slot = some hook → hook.Unnumbered home

/-- The hooks are around scripts only when it comes to runs in the direction.  They act through
their transactions, and over these files they do the same at every position. -/
structure Hooks.AroundScripts (hooks : Hooks) (direction : Direction) (home : Home) : Prop where
  opening : hooks.find? (.before direction) = none
  closing : hooks.find? (.after direction) = none
  confined : hooks.Confined
  unnumbered : hooks.Unnumbered home

/-- The scripts of a plan as those of two plans, one after the other. -/
structure Plan.Parts (whole first second : Plan) : Prop where
  direction_first : first.direction = whole.direction
  direction_second : second.direction = whole.direction
  scripts : whole.scripts = first.scripts ++ second.scripts

namespace Runner

variable {runner : Runner} {direction : Direction} {sequence : Nat} {world : World} {home : Home}

section Positions

variable (hnumber : runner.hooks.Unnumbered home) (other : Nat)

include hnumber

theorem ends_callHook_renumber {slot : HookSlot} {change : Change} {tx : Transaction}
    {ok : Transaction → World → Prop} {error : Failure → World → Prop}
    (hhome : world.home = home) :
    Ends (runner.callHook slot (some (change, sequence)) tx) world ok error ↔
      Ends (runner.callHook slot (some (change, other)) tx) world ok error := by
  rw [ends_callHook_eq, ends_callHook_eq]
  cases hfind : runner.hooks.find? slot with
  | none => rfl
  | some hook =>
    -- the contexts differ in the position only, to which the hook pays no attention
    have hcall := hnumber slot hook hfind (runner.hookContext slot (some (change, other)))
      sequence tx world hhome
    exact ends_congr_run hcall

variable (hconfined : runner.hooks.Confined)

include hconfined

theorem ends_apply_renumber {script : Script} {text : String} {tx : Transaction}
    {ok : Transaction × Nat → World → Prop} {error : Failure → World → Prop}
    (hhome : world.home = home) :
    Ends (runner.apply direction sequence script text tx) world ok error ↔
      Ends (runner.apply direction other script text tx) world ok error := by
  rw [ends_apply_eq, ends_apply_eq, ends_callHook_renumber hnumber other hhome]
  refine ((takes_callHook hconfined.keep _ _ tx).ends_same world).congr (fun t now hnow => ?_)
    fun _ _ _ => Iff.rfl
  -- the first hook leaves the files, so the second one finds them as they were
  cases Access.firstFault? now.database (runner.rules.statements text) with
  | some fault => rfl
  | none => exact ends_callHook_renumber hnumber other (hnow.home.trans hhome)

/-- Scripts that are executed from one position on are executed in the same way from another. -/
theorem ends_applyOneByOne_renumber {scripts : List Script} {ok : List Outcome → World → Prop}
    {error : List Outcome × Failure → World → Prop} (hhome : world.home = home) :
    Ends (runner.applyOneByOne direction sequence scripts) world ok error ↔
      Ends (runner.applyOneByOne direction other scripts) world ok error := by
  induction scripts generalizing sequence other world ok error with
  | nil => rw [ends_applyOneByOne_nil, ends_applyOneByOne_nil]
  | cons script rest ih =>
    have hscript : ∀ {ok : Nat → World → Prop} {error : Failure → World → Prop},
        Ends (runner.applyAlone direction sequence script) world ok error ↔
          Ends (runner.applyAlone direction other script) world ok error := by
      intro ok error
      rw [ends_applyAlone_eq, ends_applyAlone_eq]
      cases script.text direction with
      | error failure => rfl
      | ok text => exact ends_apply_renumber hnumber other hconfined hhome
    have htakes : Takes Keeps (runner.applyAlone direction other script) :=
      takes_applyAlone ordinary_keeps hconfined.keep direction other script
    rw [ends_applyOneByOne_cons, ends_applyOneByOne_cons, hscript]
    refine (htakes.ends_same world).congr (fun n now hnow => ?_) fun _ _ _ => Iff.rfl
    exact ih (other + 1) (hnow.home.trans hhome)

end Positions

/-! ## Scripts in two parts -/

/-- Without a hook after the run, scripts are executed one by one up to any of them and from there
on. -/
theorem ends_applyOneByOne_append {first second : List Script}
    {ok : List Outcome → World → Prop} {error : List Outcome × Failure → World → Prop}
    (hclosing : runner.hooks.find? (.after direction) = none) :
    Ends (runner.applyOneByOne direction sequence (first ++ second)) world ok error ↔
      Ends (runner.applyOneByOne direction sequence first) world
        (fun outcomes now =>
          Ends (runner.applyOneByOne direction (sequence + first.length) second) now
            (fun others after => ok (outcomes ++ others) after)
            (fun failure after => error (outcomes ++ failure.1, failure.2) after))
        (fun failure after => error (failure.1 ++ second.map .pending, failure.2) after) := by
  induction first generalizing sequence world ok error with
  | nil =>
    have hnone : runner.hooks.has (.after direction) = false := by simp [Hooks.has, hclosing]
    rw [ends_applyOneByOne_nil, ends_callHookAlone_eq, hnone]
    rfl
  | cons script rest ih =>
    rw [List.cons_append, ends_applyOneByOne_cons, ends_applyOneByOne_cons]
    simp only [ih, List.map_append, List.cons_append, List.length_cons, Nat.add_assoc,
      Nat.add_comm 1]

section Parts

variable {whole first second : Plan} (hhooks : runner.hooks.AroundScripts whole.direction home)
  (hparts : whole.Parts first second)

include hhooks

/-- Without a hook before the run the scripts are all that there is to execute. -/
theorem ends_runPerScript_open {plan : Plan} (hplan : plan.direction = whole.direction)
    {ok : List Outcome → World → Prop} {error : List Outcome × Failure → World → Prop} :
    Ends (runner.runPerScript plan) world ok error ↔
      Ends (runner.applyOneByOne whole.direction 0 plan.scripts) world ok error := by
  have hnone : runner.hooks.has (.before whole.direction) = false := by
    simp [Hooks.has, hhooks.opening]
  rw [ends_runPerScript_eq, hplan, ends_callHookAlone_eq, hnone]
  rfl

include hparts

/-- Script by script a run is the run of its first scripts followed by the run of the others. -/
theorem ends_runPerScript_append {ok : List Outcome → World → Prop}
    {error : List Outcome × Failure → World → Prop} (hhome : world.home = home) :
    Ends (runner.runPerScript whole) world ok error ↔
      Ends (runner.runPerScript first) world
        (fun outcomes now => Ends (runner.runPerScript second) now
          (fun others after => ok (outcomes ++ others) after)
          (fun failure after => error (outcomes ++ failure.1, failure.2) after))
        (fun failure after =>
          error (failure.1 ++ second.scripts.map .pending, failure.2) after) := by
  rw [ends_runPerScript_open hhooks rfl, ends_runPerScript_open hhooks hparts.direction_first,
    hparts.scripts, ends_applyOneByOne_append hhooks.closing]
  have htakes : Takes Keeps (runner.applyOneByOne whole.direction 0 first.scripts) :=
    takes_applyOneByOne ordinary_keeps hhooks.confined.keep _ _ _
  refine (htakes.ends_same world).congr (fun outcomes now hnow => ?_) fun _ _ _ => Iff.rfl
  -- the second run counts from zero, and the files are those that the first one found
  rw [ends_runPerScript_open hhooks hparts.direction_second]
  exact ends_applyOneByOne_renumber hhooks.unnumbered 0 hhooks.confined (hnow.home.trans hhome)

/-- In either mode the scripts of a run that succeeds can be executed in two parts. -/
theorem reaches_runMode_append {final : World} (hhome : world.home = home)
    (h : Reaches (runner.runMode whole) world final) :
    ∃ now last, Reaches (runner.runMode first) world now ∧
      Reaches (runner.runMode second) now last ∧
      last.database.timeless = final.database.timeless := by
  -- what is done script by script can be cut exactly
  have hcut : ∀ {final : World}, Reaches (runner.runPerScript whole) world final →
      ∃ now, Reaches (runner.runPerScript first) world now ∧
        Reaches (runner.runPerScript second) now final := by
    intro final h
    obtain ⟨done, now, hfirst, hsecond⟩ :=
      ((ends_runPerScript_append hhooks hparts hhome).mp h).exists_ok
    exact ⟨now, reaches_iff.mpr ⟨done, hfirst⟩, hsecond⟩
  revert h
  unfold runMode
  cases runner.mode with
  | perScript =>
    intro h
    obtain ⟨now, hfirst, hsecond⟩ := hcut h
    exact ⟨now, final, hfirst, hsecond, rfl⟩
  | perPlan =>
    intro h
    -- the run in one transaction goes along with one script by script, which can be cut
    obtain ⟨final', hscripts, hfinal⟩ :=
      (lockstep_runPerScript hhooks.confined (World.Alike.refl world).aligned).reaches_left
        (fun _ _ _ _ h => h.2) h
    obtain ⟨now', hfirst', hsecond'⟩ := hcut hscripts
    -- and so does each part of it
    obtain ⟨now, hfirst, hnow⟩ :=
      (lockstep_runPerScript hhooks.confined (World.Alike.refl world).aligned).reaches_right
        (fun _ _ _ _ h => h.2) hfirst'
    obtain ⟨last, hsecond, hlast⟩ :=
      (lockstep_runPerScript hhooks.confined hnow.aligned).reaches_right
        (fun _ _ _ _ h => h.2) hsecond'
    exact ⟨now, last, hfirst, hsecond, hlast.database.symm.trans hfinal.database⟩

end Parts

/-! ## Runs in two parts -/

/-- A run that succeeds depends on the direction and the scripts of its plan only. -/
theorem reaches_run_congr {plan other : Plan} {final : World}
    (hdirection : other.direction = plan.direction) (hscripts : other.scripts = plan.scripts) :
    Reaches (runner.run other) world final ↔ Reaches (runner.run plan) world final := by
  obtain ⟨direction, scripts, missing, skipped⟩ := plan
  obtain ⟨direction', scripts', missing', skipped'⟩ := other
  subst hdirection hscripts
  unfold Reaches
  rw [ends_run, ends_run]
  rfl

theorem reaches_run_idle {plan : Plan} {final : World} (hidle : plan.scripts = []) :
    Reaches (runner.run plan) world final ↔ world = final := by
  have hempty : plan.isEmpty = true := List.isEmpty_iff.mpr hidle
  unfold Reaches
  rw [ends_run, if_pos hempty]

/-- A run with scripts succeeds when they do once the ledger's table is there. -/
theorem reaches_run_busy {plan : Plan} {final : World} (hbusy : plan.scripts ≠ []) :
    Reaches (runner.run plan) world final ↔
      ¬ (plan.direction.isUp ∧ world.database.unreachable) ∧
        Reaches (runner.runMode plan) (runner.start plan world) final := by
  have hsome : ¬ plan.isEmpty = true := fun hempty => hbusy (List.isEmpty_iff.mp hempty)
  unfold Reaches
  rw [ends_run, if_neg hsome, ends_runScripts]
  split
  · rename_i hlost
    simp [hlost]
  · rename_i hreach
    simp [hreach]

/-- Where the ledger's table is there already, nothing is to be done for it. -/
theorem start_of_table {plan : Plan}
    (h : plan.direction.isUp = true → (world.database.table? runner.ledger.table).isSome) :
    runner.start plan world = world := by
  unfold start
  split
  · rename_i hup
    obtain ⟨table, htable⟩ := Option.isSome_iff_exists.mp (h hup)
    rw [Database.createTable, htable]
  · rfl

/-- A run that succeeds can be had in two runs, of its first scripts and of the others. -/
theorem reaches_run_append {whole first second : Plan} {final : World}
    (hhooks : runner.hooks.AroundScripts whole.direction world.home)
    (hkeep : runner.hooks.KeepLedger runner.ledger.table) (hparts : whole.Parts first second)
    (h : Reaches (runner.run whole) world final) :
    ∃ now last, Reaches (runner.run first) world now ∧ Reaches (runner.run second) now last ∧
      last.database.timeless = final.database.timeless := by
  by_cases hfirst : first.scripts = []
  · -- without scripts in the first part the second one is the whole run
    have hscripts : second.scripts = whole.scripts := by simp [hparts.scripts, hfirst]
    exact ⟨world, final, (reaches_run_idle hfirst).mpr rfl,
      (reaches_run_congr hparts.direction_second hscripts).mpr h, rfl⟩
  by_cases hsecond : second.scripts = []
  · have hscripts : first.scripts = whole.scripts := by simp [hparts.scripts, hsecond]
    exact ⟨final, final, (reaches_run_congr hparts.direction_first hscripts).mpr h,
      (reaches_run_idle hsecond).mpr rfl, rfl⟩
  · have hwhole : whole.scripts ≠ [] := by simp [hparts.scripts, hfirst]
    obtain ⟨hreach, hmode⟩ := (reaches_run_busy hwhole).mp h
    have hstart := sameCircumstances_start runner whole world
    obtain ⟨now, last, hdone, hrest, hlast⟩ :=
      reaches_runMode_append hhooks hparts hstart.home hmode
    have hsame : world.SameCircumstances now := by
      obtain ⟨outcomes, hrun⟩ := reaches_iff.mp hdone
      have htakes : Takes Keeps (runner.runMode first) :=
        takes_runMode ordinary_keeps hhooks.confined.keep first
      exact hstart.trans ((htakes.ends_same _).of_ok hrun)
    have hstarts : runner.start first world = runner.start whole world := by
      rw [start, start, hparts.direction_first]
    -- the first run left the ledger's table, which was there when its scripts began
    have htable : second.direction.isUp = true →
        (now.database.table? runner.ledger.table).isSome := by
      intro hup
      obtain ⟨outcomes, hrun⟩ := reaches_iff.mp hdone
      obtain ⟨-, hrecorded⟩ := (ends_runMode_recorded hkeep).of_ok hrun
      rw [hparts.direction_second] at hup
      simp only [seen_empty] at hrecorded
      simp [hrecorded.1, start, hup, Database.table?_createTable]
    refine ⟨now, last, (reaches_run_busy hfirst).mpr ⟨?_, ?_⟩,
      (reaches_run_busy hsecond).mpr ⟨?_, ?_⟩, hlast⟩
    · rwa [hparts.direction_first]
    · rwa [hstarts]
    · rwa [hparts.direction_second, hsame.unreachable]
    · rwa [start_of_table htable]

end Runner

end Migrations

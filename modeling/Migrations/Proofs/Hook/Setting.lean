import Migrations.Hook.Setting
import Migrations.Proofs.Procedure.Ending

/-!
# Hooks of Settings

Settings can name two kinds of hooks: files with statements and programs.  What is true of both
kinds is true of all hooks that settings configure.

## Main statements

- `Hooks.describable_ofSettings`: settings configure no other hooks.
-/

namespace Migrations

/-- A program reaches the files, but not the database. -/
theorem HookProgram.database_run (program : HookProgram) (context : HookContext) (world : World) :
    (program.run context world).2.database = world.database := by
  unfold run
  split
  · rfl
  · rfl

/-- A program hook leaves the database and the transaction that it is given, whether it agrees or
not. -/
theorem Hook.ends_program {program : HookProgram} {context : HookContext}
    {tx? : Option Transaction} {world : World} {ok : Option Transaction → World → Prop}
    {error : HookFault → World → Prop}
    (hok : ∀ after, after.database = world.database → ok tx? after)
    (herror : ∀ fault after, after.database = world.database → error fault after) :
    Attempt.Ends ((Hook.program program).call context tx?) world ok error := by
  have hdatabase := program.database_run context world
  unfold Hook.program
  rw [Attempt.ends_bind, Attempt.ends_act]
  revert hdatabase
  rcases program.run context world with ⟨fault | _, after⟩
  · exact herror fault after
  · exact hok after

/-- The hook is one that a setting can describe. -/
inductive Hook.Describable : Hook → Prop where
  | statements (path : Path) (options : Variables) (rules : StatementRules) :
    Describable (.statements path options rules)
  | program (program : HookProgram) : Describable (.program program)

namespace Hook

variable {rules : StatementRules} {name setting : String} {hook : Hook}

theorem describable_ofKind {kind : String} {path : Path} {options : HookOptions}
    (h : Hook.ofKind rules name setting kind path options = .ok hook) : hook.Describable := by
  unfold ofKind at h
  dsimp only at h
  -- a file with statements, a program, or a kind that is refused
  split at h
  · split at h
    · cases h
    · split at h
      · cases h
      · cases h
        exact .statements path options.vars rules
  · split at h
    · cases h
      exact .program _
    · cases h

theorem describable_ofSetting {home : Home} {layout : Layout}
    (h : Hook.ofSetting home layout rules name setting = .ok hook) : hook.Describable := by
  unfold ofSetting at h
  dsimp only at h
  split at h
  · cases h
  · obtain ⟨options, -, h⟩ := bind_eq_ok.mp h
    split at h
    · cases h
    · split at h
      · cases h
      · exact describable_ofKind h

end Hook

namespace Hooks

/-- What the hooks have in common stays so when one more hook has it. -/
theorem register_all {P : Hook → Prop} {hooks : Hooks} {hook : Hook}
    (h : ∀ slot found, hooks.find? slot = some found → P found) (hhook : P hook)
    (slot other : HookSlot) (found : Hook)
    (hfind : (hooks.register slot hook).find? other = some found) : P found := by
  unfold register at hfind
  dsimp only at hfind
  split at hfind
  · cases hfind
    exact hhook
  · exact h other found hfind

theorem describable_addAll {home : Home} {rules : StatementRules} {hooks all : Hooks}
    {configured : List (HookSlot × String)}
    (h : ∀ slot hook, hooks.find? slot = some hook → hook.Describable)
    (hall : Hooks.addAll home rules hooks configured = .ok all) :
    ∀ slot hook, all.find? slot = some hook → hook.Describable := by
  -- the hooks that are there already grow by one with each setting
  induction configured generalizing hooks with
  | nil =>
    cases hall
    exact h
  | cons entry rest ih =>
    obtain ⟨slot, setting⟩ := entry
    rw [addAll] at hall
    obtain ⟨hook, hhook, hall⟩ := bind_eq_ok.mp hall
    exact ih (register_all h (Hook.describable_ofSetting hhook) slot) hall

/-- Settings configure hooks with statements and hooks with programs, and no others. -/
theorem describable_ofSettings {home : Home} {layout : Layout} {settings : Settings}
    {hooks : Hooks} (h : Hooks.ofSettings home layout settings = .ok hooks) (slot : HookSlot)
    (hook : Hook) (hfind : hooks.find? slot = some hook) : hook.Describable := by
  refine describable_addAll ?_ h slot hook hfind
  intro other found hfound
  cases hfound

end Hooks

end Migrations

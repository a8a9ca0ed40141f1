import Migrations.Proofs.Hook.Setting
import Migrations.Proofs.Procedure.HookCalls

/-!
# Hooks and Hook Calls

Hooks are called by runs.  Those that settings configure call no hooks themselves; for other hooks
the calls that they make are left aside, so that what is left are the calls of the run.

## Main statements

- `Hook.ends_masked`: a hook whose own calls are left aside does what it did.
- `Hooks.silent_masked`: then it calls no hooks.
- `Hooks.silent_ofSettings`: the hooks of settings call no hooks.
-/

namespace Migrations

open Attempt

/-- The event, unless it is a hook call. -/
def Event.masked : Event → Event
  | hook _ _ => callback
  | event => event

theorem Event.hookCall?_masked (event : Event) : event.masked.hookCall? = none := by
  cases event <;> rfl

theorem Event.masked_of_silent {event : Event} (h : event.hookCall? = none) :
    event.masked = event := by
  cases event with
  | hook slot context => cases h
  | _ => rfl

namespace Hook

/-- The hook calls no hooks, whether it is called in a transaction or not. -/
def Silent (hook : Hook) : Prop := ∀ context tx?, IsSilent (hook.call context tx?)

/-- The hook without the calls of hooks that it makes itself. -/
def masked (hook : Hook) : Hook where
  name := hook.name
  call context tx? := ExceptT.mk ((hook.call context tx?).run.relabel Event.masked)

theorem silent_masked (hook : Hook) : hook.masked.Silent := fun _ _ =>
  Procedure.everyStep_relabel (fun event _ => event.hookCall?_masked) _

theorem masked_of_silent {hook : Hook} (h : hook.Silent) : hook.masked = hook := by
  obtain ⟨name, call⟩ := hook
  -- relabelling does nothing to events that are no calls
  refine congrArg (Hook.mk name) (funext fun context => funext fun tx? => ?_)
  exact Procedure.relabel_eq_self ((h context tx?).mono fun _ _ => Event.masked_of_silent)

/-- What is left aside changes nothing about what the hook does. -/
theorem ends_masked {hook : Hook} {context : HookContext} {tx? : Option Transaction}
    {world : World} {ok : Option Transaction → World → Prop} {error : HookFault → World → Prop} :
    Ends (hook.masked.call context tx?) world ok error ↔
      Ends (hook.call context tx?) world ok error := by
  have hrun : (hook.masked.call context tx?).run.run world =
      (hook.call context tx?).run.run world := Procedure.run_relabel _ _ _
  unfold Ends
  rw [hrun]

theorem silent_callback (name : String)
    (f : HookContext → Database → Except HookFault Unit × Database) :
    (Hook.callback name f).Silent := fun _ _ =>
  takes_bind (Procedure.everyStep_act rfl) fun _ => takes_pure _

theorem Describable.silent {hook : Hook} (h : hook.Describable) : hook.Silent := by
  intro context tx?
  cases h with
  | program program => exact takes_bind (Procedure.everyStep_act rfl) fun _ => takes_pure tx?
  | statements path options rules =>
    cases tx? with
    | none => trivial
    | some tx =>
      refine takes_bind (Access.takes_files ordinary_silent _) fun text => ?_
      exact takes_bind (takes_adapt _ (Access.takes_executeAll ordinary_silent tx _))
        fun _ => takes_pure _

end Hook

namespace Hooks

/-- The hooks call no hooks. -/
def Silent (hooks : Hooks) : Prop := ∀ slot hook, hooks.find? slot = some hook → hook.Silent

/-- The hooks without the calls of hooks that they make themselves. -/
def masked (hooks : Hooks) : Hooks :=
  { hooks with find? := fun slot => (hooks.find? slot).map Hook.masked }

theorem silent_masked (hooks : Hooks) : hooks.masked.Silent := by
  intro slot hook hfind
  obtain ⟨other, -, rfl⟩ := Option.map_eq_some_iff.mp hfind
  exact other.silent_masked

theorem masked_of_silent {hooks : Hooks} (h : hooks.Silent) : hooks.masked = hooks := by
  have hfind : (fun slot => (hooks.find? slot).map Hook.masked) = hooks.find? := by
    funext slot
    cases hslot : hooks.find? slot with
    | none => rfl
    | some hook => exact congrArg some (Hook.masked_of_silent (h slot hook hslot))
  rw [masked, hfind]

/-- The hooks that settings configure call no hooks. -/
theorem silent_ofSettings {home : Home} {layout : Layout} {settings : Settings} {hooks : Hooks}
    (h : Hooks.ofSettings home layout settings = .ok hooks) : hooks.Silent :=
  fun slot hook hfind => (describable_ofSettings h slot hook hfind).silent

end Hooks

end Migrations

import Migrations.Failure
import Migrations.Procedure.Access

/-!
# Hooks

A hook is called at a slot with a context and with the transaction of the work around it, if there
is one.  A hook that fails makes that work fail.
-/

namespace Migrations

/-- Something that is called at a slot. -/
structure Hook where
  name : String
  call : HookContext → Option Transaction → Attempt HookFault (Option Transaction)

/-- A hook that is part of the process and acts on the database outside of any transaction. -/
def Hook.callback (name : String)
    (f : HookContext → Database → Except HookFault Unit × Database) : Hook where
  name := name
  call context tx? := do
    ExceptT.mk (Access.database .callback (f context))
    return tx?

/-- The hooks of a project. -/
structure Hooks where
  find? : HookSlot → Option Hook := fun _ => none
  layout : Layout
  vars : Variables := {}

namespace Hooks

def has (hooks : Hooks) (slot : HookSlot) : Bool := (hooks.find? slot).isSome

def slots (hooks : Hooks) : List HookSlot := HookSlot.all.filter hooks.has

def isEmpty (hooks : Hooks) : Bool := hooks.slots.isEmpty

/-- The hooks with one more, in place of the one at its slot. -/
def register (hooks : Hooks) (slot : HookSlot) (hook : Hook) : Hooks :=
  { hooks with find? := fun other => if other = slot then some hook else hooks.find? other }

def context (hooks : Hooks) (slot : HookSlot) : HookContext :=
  HookContext.ofSlot slot hooks.layout hooks.vars

/-- Calls the hook at a slot, if there is one. -/
def dispatch (hooks : Hooks) (slot : HookSlot) (context : HookContext)
    (tx? : Option Transaction) : Attempt Failure (Option Transaction) :=
  match hooks.find? slot with
  | none => return tx?
  | some hook => do
    Procedure.mark (.hook slot context)
    (hook.call context tx?).adapt fun fault =>
      .hook hook.name slot.phase (context.change.map Change.id) fault

end Hooks

end Migrations

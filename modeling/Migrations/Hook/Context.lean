import Migrations.Hook.Slot
import Migrations.Script.Placeholder
import Migrations.Settings.Layout
import Migrations.Text.Json

/-!
# Hook Contexts

What a hook gets to know about the operation that it runs in.  Programs receive it as a JSON text,
and statements can name parts of it as variables.
-/

namespace Migrations

structure HookContext where
  /-- The point at which the hook runs. -/
  phase : HookPhase
  /-- The direction of the run, if there is one. -/
  direction : Option Direction := none
  change : Option Change := none
  description : Option String := none
  filename : Option String := none
  layout : Layout
  vars : Variables
  sequence : Nat := 0
  deriving DecidableEq

namespace HookContext

def ofSlot (slot : HookSlot) (layout : Layout) (vars : Variables) : HookContext where
  phase := slot.phase
  direction := slot.direction?
  layout := layout
  vars := vars

/-- The context for a change at a position of the run. -/
def forChange (context : HookContext) (change : Change) (sequence : Nat) : HookContext :=
  { context with
    filename := change.filename
    description := some change.description
    change := some change
    sequence := sequence }

def forScript (context : HookContext) (description filename : String) : HookContext :=
  { context with description := some description, filename := some filename }

/-! ## Views -/

/-- The parts that are set, under the given names. -/
def known (parts : List (String × Option String)) : Variables :=
  Variables.ofList (parts.filterMap fun (name, value?) => value?.map fun value => (name, value))

/-- The parts of the context that statements can name. -/
def hookVariables (context : HookContext) : Variables :=
  known [
    ("hook_phase", some (toString context.phase)),
    ("hook_direction", context.direction.map toString),
    ("change_id", context.change.map fun change => toString change.id),
    ("description", context.description),
    ("filename", context.filename),
    ("sequence", some (toString context.sequence))]

def toJson (context : HookContext) : Json :=
  .object [
    ("phase", .string (toString context.phase)),
    ("direction", .option (context.direction.map toString)),
    ("change", match context.change with
      | none => .null
      | some change => .object [
        ("id", .number change.id.toNat),
        ("description", .string change.description),
        ("applied_at", .option (change.appliedAt.map Instant.toInternet)),
        ("filename", .option change.filename)]),
    ("description", .option context.description),
    ("filename", .option context.filename),
    ("paths", .object [
      ("base", .string context.layout.base.text),
      ("env", .string context.layout.environments.text),
      ("scripts", .string context.layout.scripts.text),
      ("hooks", .string context.layout.hooks.text)]),
    ("variables", .object (context.vars.entries.map fun (name, value) =>
      (name, .string value))),
    ("sequence", .number context.sequence)]

/-- The context as a JSON text without blanks. -/
def payload (context : HookContext) : String := context.toJson.render

end HookContext

end Migrations

import Migrations.Failure
import Migrations.Script.FileName

/-!
# Scripts

A script holds the statements of one change: those that apply it and, unless the change cannot be
undone, those that undo it.
-/

namespace Migrations

structure Script where
  id : ChangeId
  description : String
  filename : String
  /-- The text that applies the change. -/
  up : String
  /-- The text that undoes the change; nothing when it cannot be undone. -/
  down : Option String := none
  deriving DecidableEq, Repr, Inhabited

namespace Script

/-- The script of an id, with the file name that follows from the description. -/
def ofUp (id : ChangeId) (description up : String) : Script where
  id := id
  description := description
  filename := ScriptName.compose (toString id) description
  up := up

def isReversible (script : Script) : Bool := script.down.isSome

def change (script : Script) : Change :=
  (Change.pending script.id script.description).named script.filename

def text (script : Script) : Direction → Except Failure String
  | .up => .ok script.up
  | .down =>
    match script.down with
    | some text => .ok text
    | none => .error (.irreversible script.id script.filename)

end Script

end Migrations

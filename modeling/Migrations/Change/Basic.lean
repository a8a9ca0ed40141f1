import Migrations.Calendar.Instant
import Migrations.Change.Id

/-!
# Changes

A change is one migration as the ledger knows it: an id, a description and, once it is applied, the
time of that.  Changes are ordered by their ids alone.  Beside them stand the two directions of a
run and what part of the changes a run is asked for.
-/

namespace Migrations

/-! ## Changes -/

/-- One migration as the ledger knows it. -/
structure Change where
  id : ChangeId
  description : String
  /-- When the change was applied; nothing for a pending change. -/
  appliedAt : Option Instant := none
  filename : Option String := none
  deriving DecidableEq, Repr, Inhabited

namespace Change

def pending (id : ChangeId) (description : String) : Change := ⟨id, description, none, none⟩

def named (change : Change) (filename : String) : Change :=
  { change with filename := some filename }

/-- The change with a time of application: its own, or else the given one. -/
def stamped (change : Change) (now : Instant) : Change :=
  { change with appliedAt := some (change.appliedAt.getD now) }

def isApplied (change : Change) : Bool := change.appliedAt.isSome

/-- The time of application as it is shown, as wide for a pending change as for an applied one. -/
def appliedText (change : Change) : String :=
  match change.appliedAt with
  | some time => time.toDisplay
  | none => "   ...pending...   "

instance : ToString Change :=
  ⟨fun change =>
    let applied := change.appliedText
    let id := change.id
    let description := change.description
    s!"{id} {applied} {description}"⟩

/-- The changes in ascending order of their ids; changes of one id keep their order. -/
def sort (changes : List Change) : List Change :=
  changes.mergeSort (fun a b => decide (a.id ≤ b.id))

end Change

/-! ## Directions and targets -/

/-- Whether a run applies changes or undoes them. -/
inductive Direction where
  | up
  | down
  deriving DecidableEq, Repr, Inhabited

namespace Direction

instance : ToString Direction := ⟨fun | .up => "up" | .down => "down"⟩

def isUp : Direction → Bool
  | .up => true
  | .down => false

end Direction

/-- How far a run goes. -/
inductive Target where
  /-- Every pending change, or the latest applied one. -/
  | latest
  /-- Every change up to and with the id, or every applied one down to it. -/
  | through (id : ChangeId)
  /-- So many changes. -/
  | steps (n : Nat)
  deriving DecidableEq, Repr, Inhabited

end Migrations

import Migrations.Plan

/-!
# Status

Every change that the scripts or the ledger know, with its state.  A change that both know is shown
as the ledger has it, under the file name of its script.
-/

namespace Migrations

/-- The state of all changes. -/
structure Status where
  changes : List Change
  /-- The applied changes that have no script, ascending. -/
  missing : List ChangeId
  /-- How many scripts are applied. -/
  applied : Nat
  pending : Nat
  deriving DecidableEq, Repr

namespace Status

/-- The row of a script in the ledger. -/
def row? (ledger : List Change) (entry : ScriptEntry) : Option Change :=
  ledger.find? (fun change => change.id == entry.id)

/-- The change of a script, as the ledger has it if it is applied. -/
def ofEntry (ledger : List Change) (entry : ScriptEntry) : Change :=
  match row? ledger entry with
  | some change => change.named entry.filename
  | none => entry.change

/-- The rows of the ledger that belong to no script. -/
def unknown (catalog : Catalog) (ledger : List Change) : List Change :=
  ledger.filter (fun change => !catalog.ids.contains change.id)

def merge (catalog : Catalog) (ledger : List Change) : Status where
  changes := Change.sort (catalog.entries.map (ofEntry ledger) ++ unknown catalog ledger)
  missing := ((unknown catalog ledger).map Change.id).mergeSort (fun a b => decide (a ≤ b))
  applied := catalog.entries.countP (fun entry => (row? ledger entry).isSome)
  pending := catalog.entries.countP (fun entry => (row? ledger entry).isNone)

def header : String := "ID             Applied At          Description"

def line (status : Status) (change : Change) : String :=
  if status.missing.contains change.id then s!"{change}    <== missing script" else s!"{change}"

def toText (status : Status) : String :=
  let rule := String.ofList (List.replicate 80 '=')
  String.join ((header :: rule :: status.changes.map status.line).map (· ++ "\n"))

end Status

end Migrations

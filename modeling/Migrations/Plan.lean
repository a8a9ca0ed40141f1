import Migrations.Script.Catalog

/-!
# Plans

Which scripts a run is going to execute.  A plan follows from the catalog of scripts and the
ledger's changes alone.  Upwards it holds pending scripts in ascending order of their ids, downwards
the scripts of applied changes in descending order.
-/

namespace Migrations

/-! ## Catalog and ledger -/

namespace Catalog

def recorded (ledger : List Change) (id : ChangeId) : Bool :=
  ledger.any (fun change => change.id == id)

def pendingEntries (catalog : Catalog) (ledger : List Change) : List ScriptEntry :=
  catalog.entries.filter (fun entry => !recorded ledger entry.id)

def pending (catalog : Catalog) (ledger : List Change) : List Change :=
  (catalog.pendingEntries ledger).map ScriptEntry.change

/-- The changes of the ledger that have no script. -/
def missing (catalog : Catalog) (ledger : List Change) : List Change :=
  Change.sort (ledger.filter (fun change => !catalog.contains change.id))

def latest? : List Change → Option ChangeId
  | [] => none
  | change :: rest =>
    match latest? rest with
    | some id => some (if id ≤ change.id then change.id else id)
    | none => some change.id

/-- The changes that are not in the ledger although a later one is. -/
def skippedChanges (catalog : Catalog) (ledger : List Change) : List Change :=
  match latest? ledger with
  | some latest => (catalog.pending ledger).filter (fun change => decide (change.id < latest))
  | none => []

/-! ## Selection -/

/-- The part of a list that a number of steps covers. -/
def within {α : Type} (target : Target) (xs : List α) : List α :=
  match target with
  | .steps n => xs.take n
  | _ => xs

/-- The pending entries that a run upwards reaches. -/
def selectUp (catalog : Catalog) (ledger : List Change) (target : Target) : List ScriptEntry :=
  within target ((catalog.pendingEntries ledger).filter fun entry =>
    match target with
    | .through id => decide (entry.id ≤ id)
    | _ => true)

/-- The changes of the ledger from the greatest id to the smallest, the first of each id. -/
def newestFirst (ledger : List Change) : List Change :=
  (ledger.mergeSort (fun a b => decide (b.id ≤ a.id))).foldr
    (fun change rest => change :: rest.dropWhile (fun other => other.id == change.id)) []

/-- The applied changes that a run downwards reaches. -/
def selectDown (ledger : List Change) (target : Target) : List Change :=
  let applied := newestFirst ledger
  match target with
  | .latest => applied.take 1
  | .through id => applied.filter (fun change => decide (id ≤ change.id))
  | .steps n => applied.take n

def loadAll (catalog : Catalog) (home : Home) : List ScriptEntry → Except Failure (List Script)
  | [] => .ok []
  | entry :: rest => do
    let script ← catalog.load home entry
    return script :: (← catalog.loadAll home rest)

def loadApplied (catalog : Catalog) (home : Home) : List Change → Except Failure (List Script)
  | [] => .ok []
  | change :: rest => do
    match ← catalog.load? home change.id with
    | some script => return script :: (← catalog.loadApplied home rest)
    | none => .error (.missingScript change.id change.description)

end Catalog

/-! ## Plans -/

/-- The scripts that a run is going to execute, with what its user should know. -/
structure Plan where
  direction : Direction
  scripts : List Script := []
  /-- Applied changes without a script. -/
  missing : List Change := []
  /-- Changes that were never applied although later ones were. -/
  skipped : List Change := []
  deriving DecidableEq

namespace Plan

def isEmpty (plan : Plan) : Bool := plan.scripts.isEmpty

def ids (plan : Plan) : List ChangeId := plan.scripts.map Script.id

def missingWarning (change : Change) : String :=
  let id := change.id
  let description := change.description
  s!"Migration script for applied change {id} ('{description}') was not found"

def skippedWarning (change : Change) : String :=
  let id := change.id
  let description := change.description
  s!"Migration {id} ('{description}') is older than the latest applied change " ++
    s!"and was never applied"

/-- What users are told before the run. -/
def warnings (plan : Plan) : List String :=
  plan.missing.map missingWarning ++ plan.skipped.map skippedWarning

def idle (catalog : Catalog) (ledger : List Change) : Plan where
  direction := .up
  missing := catalog.missing ledger
  skipped := catalog.skippedChanges ledger

/-- The plan for a direction and a target. -/
def make (catalog : Catalog) (home : Home) (ledger : List Change) (direction : Direction)
    (target : Target) : Except Failure Plan := do
  if target = .steps 0 then .error (.argument .noSteps)
  let scripts ← match direction with
    | .up => catalog.loadAll home (catalog.selectUp ledger target)
    | .down => catalog.loadApplied home (Catalog.selectDown ledger target)
  return {
    direction := direction
    scripts := scripts
    missing := catalog.missing ledger
    skipped := catalog.skippedChanges ledger }

/-- The plan after which the ledger's latest change is the one with the id. -/
def toVersion (catalog : Catalog) (home : Home) (ledger : List Change) (id : ChangeId) :
    Except Failure Plan :=
  match Catalog.latest? ledger with
  | none => make catalog home ledger .up (.through id)
  | some latest =>
    if latest = id then .ok (idle catalog ledger)
    else if latest < id then make catalog home ledger .up (.through id)
    else
      let later := (ledger.map Change.id).filter (fun applied => decide (id < applied))
      let oldest := later.foldl (fun a b => if b < a then b else a) latest
      make catalog home ledger .down (.through oldest)

end Plan

end Migrations

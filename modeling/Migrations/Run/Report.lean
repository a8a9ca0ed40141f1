import Migrations.Plan

/-!
# Run Reports

What became of every script of a run, in the order of its plan.
-/

namespace Migrations

/-- How far a script got in a run. -/
inductive ScriptState where
  | pending
  | running
  | committed
  | failed
  deriving DecidableEq, Repr

instance : ToString ScriptState :=
  ⟨fun
    | .pending => "pending"
    | .running => "running"
    | .committed => "committed"
    | .failed => "failed"⟩

/-- What became of one script. -/
structure Outcome where
  id : ChangeId
  filename : String
  description : String
  state : ScriptState := .pending
  /-- How many statements of the script were executed. -/
  statements : Nat := 0
  deriving DecidableEq, Repr

namespace Outcome

def pending (script : Script) : Outcome where
  id := script.id
  filename := script.filename
  description := script.description

def reached (script : Script) (state : ScriptState) (statements : Nat := 0) : Outcome :=
  { pending script with state := state, statements := statements }

/-- All scripts that were running are committed. -/
def commitAll (outcomes : List Outcome) : List Outcome :=
  outcomes.map fun outcome =>
    if outcome.state = .running then { outcome with state := .committed } else outcome

/-- Of the scripts that were running, the last one failed and the ones before it are pending
again. -/
def abandonAll : List Outcome → List Outcome
  | [] => []
  | outcome :: rest =>
    let settled :=
      if outcome.state ≠ .running then outcome
      else if rest.any (fun later => later.state = .running) then
        { outcome with state := .pending, statements := 0 }
      else { outcome with state := .failed }
    settled :: abandonAll rest

end Outcome

/-- What became of a run. -/
structure Report where
  direction : Direction
  /-- One outcome for every script of the plan, in its order. -/
  outcomes : List Outcome := []
  warnings : List String := []
  deriving DecidableEq, Repr

namespace Report

/-- The ids of the outcomes in a state, in order. -/
def idsOf (report : Report) (state : ScriptState) : List ChangeId :=
  (report.outcomes.filter (fun outcome => outcome.state = state)).map Outcome.id

/-- The ids of the committed scripts, in the order of their execution. -/
def committed (report : Report) : List ChangeId := report.idsOf .committed

/-- The id of the script that stopped the run. -/
def failed? (report : Report) : Option ChangeId := (report.idsOf .failed).head?

def isEmpty (report : Report) : Bool := report.outcomes.isEmpty

end Report

end Migrations

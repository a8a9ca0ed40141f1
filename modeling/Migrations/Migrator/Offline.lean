import Migrations.Migrator.Basic

/-!
# Offline Scripts

The statements of several scripts as one text, to be run by hand.  Every script is followed by the
statement that records it in the ledger, or removes its record.
-/

namespace Migrations

namespace Migrator

/-! ## Texts -/

/-- A text for use inside single quotes. -/
def doubled (text : String) : String :=
  String.ofList (text.toList.flatMap fun c => if c = '\'' then ['\'', '\''] else [c])

/-- The statement that records a script in the ledger, or removes its record. -/
def ledgerStatement (table appliedAt : String) (script : Script) : Direction → String
  | .up =>
    let id := script.id
    let description := doubled script.description
    s!"INSERT INTO {table} (id, applied_at, description) " ++
      s!"VALUES ({id}, '{appliedAt}', '{description}')"
  | .down =>
    let id := script.id
    s!"DELETE FROM {table} WHERE id = {id}"

/-- What ends the statements of an offline script. -/
def terminator (settings : Settings) : String :=
  if settings.fullLineDelimiter then "\n" ++ settings.delimiter else settings.delimiter

/-- The part of an offline script that is due to one script. -/
def renderScript (settings : Settings) (appliedAt : String) (direction : Direction)
    (script : Script) : Except Failure String := do
  let text ← script.text direction
  let body := String.ofList (Text.trimRight Text.isBlank text.toList)
  let statement := ledgerStatement settings.changelogTable appliedAt script direction
  return "-- " ++ script.filename ++ "\n" ++ body ++ "\n\n" ++ statement ++
    terminator settings ++ "\n\n"

/-- The offline script of several scripts. -/
def renderAll (settings : Settings) (appliedAt : String) (direction : Direction) :
    List Script → Except Failure String
  | [] => .ok ""
  | script :: rest => do
    let text ← renderScript settings appliedAt direction script
    return text ++ (← renderAll settings appliedAt direction rest)

/-- The offline script of several scripts, as of now. -/
def render (migrator : Migrator) (direction : Direction) (scripts : List Script) :
    Attempt Failure String := do
  let time ← Access.now
  ExceptT.mk (return renderAll migrator.settings time.toDisplay direction scripts)

/-! ## Ranges -/

/-- The entries with ids above the lower and up to the higher one. -/
def between (catalog : Catalog) (low high : ChangeId) : List ScriptEntry :=
  catalog.entries.filter (fun entry => decide (low < entry.id) && decide (entry.id ≤ high))

/-- The offline script from one version to another: upwards it applies the scripts above the first
version, downwards it undoes the scripts above the second one, the newest first. -/
def script (migrator : Migrator) (first last : ChangeId) : Attempt Failure String := do
  if first = last then throw (.argument .emptyRange)
  let catalog ← migrator.catalog
  if first < last then
    let scripts ← Access.files fun home => catalog.loadAll home (between catalog first last)
    migrator.render .up scripts
  else
    let scripts ← Access.files fun home => catalog.loadAll home (between catalog last first)
    migrator.render .down scripts.reverse

/-! ## Pending scripts -/

/-- The scripts that are not in the ledger, ascending by id. -/
def pendingScripts (migrator : Migrator) : Attempt Failure (List Script) := do
  let catalog ← migrator.catalog
  let changes ← migrator.ledger.changes
  Access.files fun home => catalog.loadAll home (catalog.pendingEntries changes)

/-- The offline script that applies what is pending. -/
def scriptPending (migrator : Migrator) : Attempt Failure String := do
  migrator.render .up (← migrator.pendingScripts)

/-- The offline script that undoes what is pending, the newest first. -/
def scriptPendingUndo (migrator : Migrator) : Attempt Failure String := do
  migrator.render .down (← migrator.pendingScripts).reverse

end Migrator

end Migrations

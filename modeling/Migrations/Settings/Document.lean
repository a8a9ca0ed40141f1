import Migrations.Settings.Basic
import Migrations.Yaml.Reader

/-!
# Settings Files

Settings written as a YAML mapping.  Every field may be left out and keeps its default then; unknown
fields are passed over, and a field must not be given twice.
-/

namespace Migrations

namespace Settings

open Yaml (Node Fault)

/-! ## Values -/

/-- The entries of a mapping; a place where nothing is written has none. -/
def entries (node : Node) : Except Fault (List (Node × Node)) :=
  match node with
  | .map entries => .ok entries
  | .scalar "" true => .ok []
  | _ => .error (.mismatch "a mapping")

def readText (node : Node) : Except Fault String :=
  match node.text? with
  | some text => .ok text
  | none => .error (.mismatch "a string")

def readOptional (node : Node) : Except Fault (Option String) :=
  if node.isNothing then .ok none else (readText node).map some

def readBool (node : Node) : Except Fault Bool :=
  match node.bool? with
  | some value => .ok value
  | none => .error (.mismatch "a boolean")

def readKey (node : Node) : Except Fault Int64 :=
  match node.int?.bind Text.signed64? with
  | some key => .ok key
  | none => .error (.mismatch "i64")

/-- A value by its exact name. -/
def readChoice {α : Type} (ofName? : String → Option α) (node : Node) : Except Fault α :=
  match node.text?.bind ofName? with
  | some value => .ok value
  | none => .error (.mismatch "a known name")

/-- The variables of a mapping of texts; a later text for a name wins. -/
def readVariables (node : Node) : Except Fault Variables := do
  let entries ← entries node
  let pairs ← entries.mapM fun (key, value) => do
    return ((← readText key), (← readText value))
  return Variables.ofList pairs

/-- The hooks of a mapping from slots to settings. -/
def readHooks (node : Node) : Except Fault HookSettings := do
  let entries ← entries node
  let (hooks, _) ← entries.foldlM (fun (hooks, seen) (key, value) => do
    let name ← readText key
    match HookSlot.ofName? name with
    | none => return (hooks, seen)
    | some slot =>
      if seen.contains slot then throw (.duplicate name)
      else match (← readOptional value) with
        | some setting => return (HookSettings.set hooks slot setting, slot :: seen)
        | none => return (hooks, slot :: seen)) (({} : HookSettings), ([] : List HookSlot))
  return hooks

/-! ## Fields -/

/-- The settings with a field set; nothing for an unknown field. -/
def setField? (settings : Settings) (field : String) (node : Node) :
    Option (Except Fault Settings) :=
  match field with
  | "database_url" =>
    some ((readOptional node).map fun value => { settings with databaseUrl := value })
  | "changelog_table" =>
    some ((readText node).map fun value => { settings with changelogTable := value })
  | "delimiter" => some ((readText node).map fun value => { settings with delimiter := value })
  | "full_line_delimiter" =>
    some ((readBool node).map fun value => { settings with fullLineDelimiter := value })
  | "send_full_script" =>
    some ((readBool node).map fun value => { settings with sendFullScript := value })
  | "transaction_mode" =>
    some ((readChoice TransactionMode.ofName? node).map fun value =>
      { settings with transactionMode := value })
  | "malformed_scripts" =>
    some ((readChoice MalformedPolicy.ofName? node).map fun value =>
      { settings with malformedScripts := value })
  | "filename_filter" =>
    some ((readOptional node).map fun value => { settings with filenameFilter := value })
  | "id_pattern" =>
    some ((readOptional node).map fun value => { settings with idPattern := value })
  | "new_template" =>
    some ((readOptional node).map fun value => { settings with newTemplate := value })
  | "lock_key" => some ((readKey node).map fun value => { settings with lockKey := value })
  | "variables" =>
    some ((readVariables node).map fun value => { settings with vars := value })
  | "hooks" => some ((readHooks node).map fun value => { settings with hooks := value })
  | _ => none

/-- The settings with the fields of a mapping set. -/
def setFields (seen : List String) : List (Node × Node) → Settings → Except Fault Settings
  | [], settings => .ok settings
  | (key, node) :: rest, settings =>
    match key.text? with
    | none => .error (.mismatch "a field name")
    | some field =>
      match settings.setField? field node with
      | none => setFields seen rest settings
      | some (.error fault) => .error fault
      | some (.ok settings) =>
        if seen.contains field then .error (.duplicate field)
        else setFields (field :: seen) rest settings

/-- The settings of a document. -/
def ofNode (node : Node) : Except Fault Settings := do
  let entries ← entries node
  setFields [] entries {}

/-- The settings of a text; the defaults when the text is blank or has no document. -/
def ofText (text : String) : Except SettingFault Settings :=
  if Text.allBlank text.toList then .ok {}
  else match Yaml.ofText text with
    | .error fault => .error (.document fault)
    | .ok none => .ok {}
    | .ok (some node) =>
      match ofNode node with
      | .ok settings => .ok settings
      | .error fault => .error (.document fault)

end Settings

end Migrations

import Migrations.Pattern.Reader
import Migrations.Script.Catalog
import Migrations.Settings.Basic

/-!
# Script Folders

The directory that scripts are found in, with the rules for their names.  Files that do not end like
scripts and files with reserved names are not part of the catalog; a file whose name breaks the
rules makes the folder unusable or is left out, as the settings say.
-/

namespace Migrations

/-- A directory of scripts. -/
structure ScriptFolder where
  dir : Path
  /-- The filter for file names, as it is written and as a pattern. -/
  filter : Option (String × Pattern) := none
  /-- What happens to names that break the rules. -/
  policy : MalformedPolicy := .fail
  /-- The variables that scripts can name. -/
  scope : Scope := {}

namespace ScriptFolder

/-- The filter of a text.  It matches in any case of the letters. -/
def filterOf (text : String) : Except Failure (String × Pattern) :=
  match Pattern.ofText true text with
  | .ok pattern => .ok (text, pattern)
  | .error fault => .error (.argument (.badFilter text fault))

def ofSettings (dir : Path) (settings : Settings) : Except Failure ScriptFolder := do
  let filter ← settings.filenameFilter.mapM filterOf
  return {
    dir := dir
    filter := filter
    policy := settings.malformedScripts
    scope := .single settings.vars }

/-! ## Names -/

def readName (folder : ScriptFolder) (name : String) : Except ScriptFault (ChangeId × String) :=
  match folder.filter with
  | some (text, pattern) =>
    if pattern.isMatch name then ScriptName.read name else .error (.filtered text)
  | none => ScriptName.read name

/-- The id and the description of a file name, which has to follow the rules. -/
def checkName (folder : ScriptFolder) (name : String) : Except Failure (ChangeId × String) :=
  match folder.readName name with
  | .ok parts => .ok parts
  | .error fault => .error (.malformed name fault)

/-! ## Scanning -/

/-- The names of the numbered scripts in the folder, in the order of its listing. -/
def candidates (listing : List Home.Entry) : List String :=
  listing.filterMap fun entry =>
    match entry.name? with
    | some name => if entry.isFile && ScriptName.isNumbered name then some name else none
    | none => none

/-- The entries for names, and the names that are left out. -/
def classify (folder : ScriptFolder) :
    List String → Except Failure (List ScriptEntry × List String)
  | [] => .ok ([], [])
  | name :: rest =>
    match folder.checkName name with
    | .ok (id, description) => do
      let (entries, skipped) ← folder.classify rest
      return (⟨id, description, name, .file (folder.dir.join name)⟩ :: entries, skipped)
    | .error failure =>
      match folder.policy with
      | .fail => .error failure
      | .skip => do
        let (entries, skipped) ← folder.classify rest
        return (entries, name :: skipped)

/-- The catalog of a listing of the folder. -/
def catalogOf (folder : ScriptFolder) (listing : List Home.Entry) : Except Failure Catalog := do
  let (entries, skipped) ← folder.classify (candidates listing)
  Catalog.ofEntries entries (skipped.mergeSort (fun a b => decide (a ≤ b))) folder.scope

/-- The catalog of the folder. -/
def scan (folder : ScriptFolder) (home : Home) : Except Failure Catalog :=
  if !home.isFolder folder.dir then .error (.argument (.noScriptFolder folder.dir))
  else match home.list folder.dir with
    | .error fault => .error (.file fault)
    | .ok listing => folder.catalogOf listing

/-! ## Reserved scripts -/

/-- The text of a reserved script with its placeholders filled, if the script is there. -/
def reserved? (folder : ScriptFolder) (name : String) (home : Home) :
    Except Failure (Option String) :=
  let path := folder.dir.join name
  if home.isFile path then
    (Catalog.readFile home path name).map fun text => some (folder.scope.fill text)
  else .ok none

def bootstrap? (folder : ScriptFolder) : Home → Except Failure (Option String) :=
  folder.reserved? ScriptName.bootstrap

def onAbort? (folder : ScriptFolder) : Home → Except Failure (Option String) :=
  folder.reserved? ScriptName.onAbort

end ScriptFolder

end Migrations

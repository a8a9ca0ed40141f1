import Migrations.Change.Id
import Migrations.Text.Blank
import Migrations.Text.Search

/-!
# Script File Names

The file of a script is named for its id and its description: `0003_add_orders.sql`, where every
underscore that separates two words stands for a blank.  Two names that end like scripts are
reserved for scripts without a number.
-/

namespace Migrations

/-! ## Faults -/

/-- What can be wrong with the file of a script. -/
inductive ScriptFault where
  | filtered (filter : String)
  | noExtension
  | badId (text : String)
  | notText
  | duplicate (id : ChangeId) (taker : String)
  | other (reason : String)
  deriving DecidableEq, Repr

def ScriptFault.reason : ScriptFault → String
  | filtered filter => s!"does not match the required filename filter '{filter}'"
  | noExtension => "expected a .sql extension"
  | badId text =>
    let rejection := ChangeId.rejection text
    s!"file name must start with a numeric id: {rejection}"
  | notText => "script is not valid UTF-8"
  | duplicate id taker => s!"id {id} is also used by '{taker}'"
  | other reason => reason

namespace ScriptName

open Text

/-! ## Names -/

/-- What the names of scripts end with. -/
def extension : String := ".sql"

/-- The script that prepares a fresh database. -/
def bootstrap : String := "bootstrap.sql"

/-- The script that runs after a failed run. -/
def onAbort : String := "onabort.sql"

def isNumbered (name : String) : Bool :=
  (before? extension.toList name.toList).isSome && name ≠ bootstrap && name ≠ onAbort

/-- The name of the script with an id, as it is written, and a description. -/
def compose (id description : String) : String :=
  let slug := join ['_'] (words description.toList)
  if slug.isEmpty then id ++ extension else id ++ "_" ++ String.ofList slug ++ extension

/-- The id and the description that a name consists of. -/
def read (name : String) : Except ScriptFault (ChangeId × String) :=
  match before? extension.toList name.toList with
  | none => .error .noExtension
  | some stem =>
    match pieces (· == '_') stem with
    | [] => .error (.badId "")
    | id :: parts =>
      let id := String.ofList id
      match ChangeId.ofText? id with
      | none => .error (.badId id)
      | some id =>
        .ok (id, String.ofList (join [' '] (parts.filter (fun part => !part.isEmpty))))

end ScriptName

end Migrations

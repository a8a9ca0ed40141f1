import Migrations.Migrator.Basic

/-!
# New Scripts

A new script gets the id after the greatest one, or an id from the clock, and starts from a template
in which the description and the variables of the settings are filled in.  It never takes the place
of a file that is there.
-/

namespace Migrations

namespace Migrator

/-! ## Templates -/

/-- What new scripts start from unless the settings name a template. -/
def defaultTemplate : String :=
  "-- // $\x7bdescription\x7d\n" ++
  "-- Migration SQL that makes the change goes here.\n" ++
  "\n\n\n" ++
  "-- //@UNDO\n" ++
  "-- SQL to undo the change goes here.\n"

def template (migrator : Migrator) (home : Home) : Except Failure String :=
  match migrator.settings.newTemplate with
  | none => .ok defaultTemplate
  | some file =>
    let path := migrator.layout.base.join file
    if !home.isFile path then .error (.argument (.noTemplate path))
    else match home.readText path with
      | .ok text => .ok text
      | .error fault => .error (.file fault)

/-! ## Names -/

def checkDescription (description : String) : Except Failure Unit :=
  if description.isEmpty then .error (.argument .noDescription)
  else if description.toList.any (fun c => c == '/' || c == '\\') then
    .error (.argument (.separators description))
  else .ok ()

def idAfter (id : ChangeId) : Except Failure ChangeId :=
  match id.next? with
  | some next => .ok next
  | none => .error (.argument (.noIdAfter id))

/-- The id of a new script as it is written.  With a pattern it is the id after the greatest one in
at least as many digits as the pattern has characters, and else the time or, when that is not
greater, the id after the greatest one. -/
def nextIdText (pattern : Option String) (latest : Option ChangeId) (now : Instant) :
    Except Failure String :=
  match pattern with
  | some pattern => do
    let next ← match latest with
      | some id => idAfter id
      | none => .ok (ChangeId.ofNat 1)
    return String.ofList (Text.padded pattern.utf8ByteSize next.toNat)
  | none =>
    let stamp := now.toStamp
    match ChangeId.ofText? stamp with
    | none => .error (.argument (.badStamp stamp))
    | some id =>
      match latest with
      | some greatest =>
        if id ≤ greatest then (idAfter greatest).map toString else .ok (toString id)
      | none => .ok (toString id)

/-! ## Creation -/

/-- Calls the hook at a slot for a script that is to be created. -/
def callNewHook (migrator : Migrator) (slot : HookSlot) (description filename : String) :
    Attempt Failure Unit := do
  let context := (migrator.hooks.context slot).forScript description filename
  let _ ← migrator.hooks.dispatch slot context none

/-- Creates a script with a description, and gives its path. -/
def newScript (migrator : Migrator) (description : String) : Attempt Failure Path := do
  let description := String.ofList (Text.trim description.toList)
  ExceptT.mk (return checkDescription description)
  let catalog ← migrator.catalog
  let now ← Access.now
  let id ← ExceptT.mk (return nextIdText migrator.settings.idPattern catalog.ids.getLast? now)
  let filename := ScriptName.compose id description
  let _ ← ExceptT.mk (return migrator.folder.checkName filename)
  let path := migrator.layout.scripts.join filename
  migrator.callNewHook .beforeNew description filename
  let template ← Access.files migrator.template
  let scope := migrator.folder.scope.push (Variables.ofList [("description", description)])
  let text := scope.fill template
  Access.changeFiles fun home => (home.create path text.toUTF8).mapError Failure.file
  migrator.callNewHook .afterNew description filename
  return path

end Migrator

end Migrations

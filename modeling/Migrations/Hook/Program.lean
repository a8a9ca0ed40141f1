import Migrations.Hook.Basic
import Migrations.Shell.Eval

/-!
# Program Hooks

A hook that runs a program, which is a shell program.  The program reads the context on its input
and finds parts of it, and the options of the hook, among its variables.  When it ends with a status
other than zero, it rejects the operation, and what it wrote is the reason.
-/

namespace Migrations

/-- A program that a hook runs. -/
structure HookProgram where
  path : Path
  /-- The program that runs the file; without it the file itself is run. -/
  runner : Option String := none
  arguments : List String := []
  options : Variables := {}
  deriving DecidableEq, Repr

namespace HookProgram

open Shell

/-! ## What the program gets -/

/-- The variables of the program. -/
def environment (program : HookProgram) (context : HookContext) : Variables :=
  program.options.overlay (HookContext.known [
    ("SHIFT_HOOK_PHASE", some (toString context.phase)),
    ("SHIFT_HOOK_SEQUENCE", some (toString context.sequence)),
    ("SHIFT_BASE_DIR", some context.layout.base.text),
    ("SHIFT_SCRIPTS_DIR", some context.layout.scripts.text),
    ("SHIFT_HOOK_DIRECTION", context.direction.map toString),
    ("SHIFT_HOOK_CHANGE_ID", context.change.map fun change => toString change.id),
    ("SHIFT_HOOK_DESCRIPTION", context.description),
    ("SHIFT_HOOK_FILENAME", context.filename)])

/-- The state that the program starts in. -/
def machine (program : HookProgram) (context : HookContext) (home : Home) : Machine where
  home := home
  vars := program.environment context
  name := program.path.text
  arguments := program.arguments
  input := context.payload.toUTF8

/-! ## Running -/

/-- The shells that run files. -/
def shells : List String := ["sh", "/bin/sh", "/usr/bin/sh"]

/-- The programs other than shells that can run a file. -/
def tools : List String := ["cat", "ls", "echo", "printf", "true", "false", "test", "[", "pwd"]

/-- The program that the first line of a text names, and its argument. -/
def interpreter? (text : List Char) : Option (String × String) :=
  (Text.after? ['#', '!'] text).map fun rest =>
    let line := (rest.takeWhile (fun c => c != '\n')).dropWhile Token.isGap
    let name := line.takeWhile (fun c => !Token.isGap c)
    let argument := (line.drop name.length).dropWhile Token.isGap
    (String.ofList name, String.ofList (Text.trimRight Token.isGap argument))

/-- Whether the shell that runs a text as a program is strict; nothing if no shell is named on its
first line. -/
def shell? (text : List Char) : Option Bool :=
  match interpreter? text with
  | some ("/usr/bin/env", shell) => if shells.contains shell then some false else none
  | some (shell, argument) =>
    if (Path.mk shell).isAbsolute && shells.contains shell then
      if argument.isEmpty then some false
      else if argument.startsWith "-" then some (argument.contains 'e')
      else none
    else none
  | none => none

def start (program : HookProgram) (context : HookContext) (home : Home) :
    Except HookFault Machine :=
  match home.find? program.path with
  | some (.file bytes executable) =>
    let machine := program.machine context home
    let text := Text.decode bytes
    match program.runner with
    | none =>
      match shell? text with
      | some strict =>
        if executable then .ok ({ machine with strict := strict }.runText text)
        else .error (.file (.notProgram program.path))
      | none => .error (.file (.notProgram program.path))
    | some runner =>
      if shells.contains runner then .ok (machine.runText text)
      else if tools.contains runner then
        match machine.program? {} 1 runner (program.path.text :: program.arguments) with
        | some machine => .ok machine
        | none => .error (.file (.missing ⟨runner⟩))
      else .error (.file (.missing ⟨runner⟩))
  | _ => .error (.notFound program.path)

/-- Why a program that ended rejects the operation, if it does: what it reported, or else what it
wrote, or else how it ended. -/
def verdict (machine : Machine) : Except HookFault Unit :=
  let ending := machine.result
  if ending = .exit 0 then .ok ()
  else
    let report := Text.trim (Text.decode machine.err)
    let written := Text.trim (Text.decode machine.out)
    let how := ending.describe
    let reason :=
      if !report.isEmpty then String.ofList report
      else if !written.isEmpty then String.ofList written
      else s!"exited with {how}"
    .error (.rejected reason)

/-- Runs the program on the files. -/
def run (program : HookProgram) (context : HookContext) (world : World) :
    Except HookFault Unit × World :=
  match program.start context world.home with
  | .error fault => (.error fault, world)
  | .ok machine => (verdict machine, { world with home := machine.home })

end HookProgram

def Hook.program (program : HookProgram) : Hook where
  name := program.path.fileName
  call context tx? := do
    ExceptT.mk (Procedure.act (.program program.path) (program.run context))
    return tx?

end Migrations

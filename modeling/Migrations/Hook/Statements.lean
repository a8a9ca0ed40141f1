import Migrations.Hook.Basic
import Migrations.Script.Statement

/-!
# Statement Hooks

A hook that runs the statements of a file in the transaction of the work around it.  The file is
read on every call.  Its placeholders are filled from the variables of the settings, then from the
context, then from the options of the hook.
-/

namespace Migrations

namespace Hook

def readStatements (path : Path) (home : Home) : Except HookFault String :=
  match home.readText path with
  | .ok text => .ok text
  | .error (.missing _) => .error (.notFound path)
  | .error fault => .error (.file fault)

/-- What the placeholders of a hook's statements are filled from. -/
def scope (context : HookContext) (options : Variables) : Scope :=
  ((Scope.single context.vars).push context.hookVariables).push options

def statements (path : Path) (options : Variables) (rules : StatementRules) : Hook where
  name := path.fileName
  call context tx? :=
    match tx? with
    | none => throw (.noTransaction path.fileName)
    | some tx => do
      let text ← Access.files (readStatements path)
      let statements := rules.statements ((scope context options).fill text)
      let tx ← (Access.executeAll tx statements).adapt .refused
      return some tx

end Hook

end Migrations

import Migrations.Hook.Program
import Migrations.Hook.Statements
import Migrations.Settings.Basic

/-!
# Hook Settings

How a hook is written in settings: `kind:file:option:option`.  The kinds are `sql` for statements
and `cmd` or `exec` for programs.  The option `_arg=text` is an argument of a program and
`_program=name` says what runs it; every other option `name=text` is a variable of the hook.
-/

namespace Migrations

structure HookOptions where
  arguments : List String := []
  runner : Option String := none
  vars : Variables := {}
  deriving DecidableEq, Repr

namespace HookOptions

def add (options : HookOptions) (name value : String) : HookOptions :=
  if name = "_arg" then { options with arguments := options.arguments ++ [value] }
  else if name = "_program" then { options with runner := some value }
  else { options with vars := options.vars.insert name value }

/-- The options that the parts of a setting give, after those before them.  Blank parts count for
nothing; every other part has a name and a value. -/
def ofParts (invalid : String → SettingFault) (options : HookOptions) :
    List (List Char) → Except SettingFault HookOptions
  | [] => .ok options
  | part :: rest =>
    if Text.allBlank part then ofParts invalid options rest
    else match Text.breakOn ['='] part with
      | none => .error (invalid "options in 'key=value' form")
      | some (name, value) =>
        let name := Text.trim name
        if name.isEmpty then .error (invalid "non-empty option names")
        else ofParts invalid (options.add (String.ofList name) (String.ofList value)) rest

/-- Whether there are options that only programs can have. -/
def needProgram (options : HookOptions) : Bool :=
  options.runner.isSome || !options.arguments.isEmpty

end HookOptions

namespace Hook

/-- Whether a hook of the slot with the name runs inside a transaction. -/
def hasTransaction (name : String) : Bool :=
  match HookSlot.ofName? name with
  | some slot => slot.direction?.isSome
  | none => true

/-- The hook of a kind, whose file is there. -/
def ofKind (rules : StatementRules) (name setting kind : String) (path : Path)
    (options : HookOptions) : Except SettingFault Hook :=
  let field := s!"hooks.{name}"
  if kind = "sql" then
    if !hasTransaction name then
      .error (.invalid field setting "a cmd hook; sql hooks need a migration transaction")
    else if options.needProgram then
      .error (.invalid field setting "no _arg or _program options for sql hooks")
    else .ok (.statements path options.vars rules)
  else if kind = "cmd" ∨ kind = "exec" then
    .ok (.program {
      path := path
      runner := options.runner
      arguments := options.arguments
      options := options.vars })
  else .error (.invalid field kind "a supported hook kind (sql, cmd)")

/-- The hook that a setting describes, under the name of the setting. -/
def ofSetting (home : Home) (layout : Layout) (rules : StatementRules) (name setting : String) :
    Except SettingFault Hook := do
  let invalid := SettingFault.invalid s!"hooks.{name}" setting
  let parts := Text.pieces (· == ':') setting.toList
  let kind := Text.lower (String.ofList (Text.trim (parts.headD [])))
  let file := Text.trim ((parts.drop 1).headD [])
  if kind.isEmpty || file.isEmpty then .error (invalid "'<kind>:<file>[:option...]'")
  let options ← HookOptions.ofParts invalid {} (parts.drop 2)
  if !home.isFolder layout.hooks then .error (.noHookFolder layout.hooks)
  let path := layout.hooks.join (String.ofList file)
  if !home.isFile path then .error (.noHookFile path)
  ofKind rules name setting kind path options

end Hook

namespace Hooks

def addAll (home : Home) (rules : StatementRules) (hooks : Hooks) :
    List (HookSlot × String) → Except SettingFault Hooks
  | [] => .ok hooks
  | (slot, setting) :: rest => do
    let hook ← Hook.ofSetting home hooks.layout rules slot.name setting
    addAll home rules (hooks.register slot hook) rest

def ofSettings (home : Home) (layout : Layout) (settings : Settings) : Except SettingFault Hooks :=
  addAll home settings.statementRules { layout := layout, vars := settings.vars }
    settings.hooks.configured

end Hooks

end Migrations

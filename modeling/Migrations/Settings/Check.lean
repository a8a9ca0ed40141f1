import Migrations.Settings.Basic

/-!
# Checking Settings

What values settings can have.  Every check says which field it looks at and what it expects there;
settings are checked field by field, and the first fault counts.  A productive environment needs a
real database on top of that.
-/

namespace Migrations

namespace Settings

open Text

/-! ## Checks of single values -/

def schemes : List String := ["postgres", "postgresql", "memory"]

def checkUrl (field value : String) : Except SettingFault Unit :=
  if value.isEmpty then .error (.invalid field value "non-empty URL")
  else if schemes.any (fun scheme => (scheme ++ "://").toList.isPrefixOf value.toList) then .ok ()
  else
    let known := ", ".intercalate schemes
    .error (.invalid field value s!"URL with scheme: {known}")

/-- One part of an SQL identifier: a letter or an underscore, then letters, digits and
underscores. -/
def isIdentifierPart : List Char → Bool
  | [] => false
  | c :: cs => (c.isAlpha || c == '_') && cs.all (fun c => c.isAlphanum || c == '_')

/-- A table name is a plain identifier, perhaps with a schema before it. -/
def checkIdentifier (field value : String) : Except SettingFault Unit :=
  let parts := pieces (· == '.') value.toList
  if parts.length ≤ 2 && parts.all isIdentifierPart then .ok ()
  else .error (.invalid field value
    "a plain SQL identifier such as 'changelog' or 'public.changelog'")

/-- A pattern can be read. -/
def checkPattern (field value : String) : Except SettingFault Unit :=
  match Pattern.ofText false value with
  | .ok _ => .ok ()
  | .error fault => .error (.badPattern field value fault)

/-- An id pattern is one or more zeros. -/
def checkIdPattern (field value : String) : Except SettingFault Unit :=
  if !value.isEmpty && value.toList.all (· == '0') then .ok ()
  else .error (.invalid field value "a run of zeros such as '0000'")

/-- A text has a length between two bounds, counted in bytes. -/
def checkLength (least : Nat) (most : Option Nat) (field value : String) :
    Except SettingFault Unit :=
  let size := value.utf8ByteSize
  if size < least then
    .error (.invalid field value s!"string with at least {least} characters")
  else match most with
    | some most =>
      if size > most then .error (.invalid field value s!"string with at most {most} characters")
      else .ok ()
    | none => .ok ()

/-- A hook setting has a kind and a file. -/
def checkHook (slot : HookSlot) (setting : String) : Except SettingFault Unit :=
  if (runs (· == ':') setting.toList).length < 2 then
    let name := slot.name
    .error (.invalid s!"hooks.{name}" setting "'<kind>:<file>' such as 'sql:post_up.sql'")
  else .ok ()

/-- A check of a value that may be left out. -/
def optional (check : String → Except SettingFault Unit) : Option String → Except SettingFault Unit
  | some value => check value
  | none => .ok ()

def checkHooks : List (HookSlot × String) → Except SettingFault Unit
  | [] => .ok ()
  | (slot, setting) :: rest => do
    checkHook slot setting
    checkHooks rest

/-! ## Checks of settings -/

/-- The checks that hold in every environment. -/
def check (settings : Settings) : Except SettingFault Unit := do
  optional (checkUrl "database_url") settings.databaseUrl
  checkIdentifier "changelog_table" settings.changelogTable
  checkLength 1 (some 16) "delimiter" settings.delimiter
  optional (checkPattern "filename_filter") settings.filenameFilter
  optional (checkIdPattern "id_pattern") settings.idPattern
  checkHooks settings.hooks.configured

/-- The checks of an environment. -/
def checkFor (settings : Settings) (environment : Environment) : Except SettingFault Unit := do
  settings.check
  if environment.isProduction then
    match settings.databaseUrl with
    | none => .error (.required "database_url" "DATABASE_URL is required in production")
    | some url =>
      if "memory://".toList.isPrefixOf url.toList then
        .error (.invalid "database_url" "memory://" "a real database in production")
      else .ok ()
  else .ok ()

end Settings

end Migrations

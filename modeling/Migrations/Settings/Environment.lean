import Migrations.Settings.Fault

/-!
# Environments

Settings belong to an environment.  Three environments are known by name and by a short form of it,
whatever the case of the letters; any other environment is a name of small letters, digits, hyphens
and underscores, so that it can name a file.
-/

namespace Migrations

/-- Where migrations run. -/
inductive Environment where
  | development
  | testing
  | production
  | named (name : String)
  deriving DecidableEq, Repr, Inhabited

namespace Environment

instance : ToString Environment :=
  ⟨fun
    | development => "development"
    | testing => "testing"
    | production => "production"
    | named name => name⟩

/-- Whether a character can be part of an environment's name. -/
def isNameChar (c : Char) : Bool := c.isAlphanum || c == '-' || c == '_'

/-- The environment that a text names. -/
def ofText (text : String) : Except SettingFault Environment :=
  let name := Text.lower text
  if name = "development" ∨ name = "dev" then .ok .development
  else if name = "testing" ∨ name = "test" then .ok .testing
  else if name = "production" ∨ name = "prod" then .ok .production
  else if name ≠ "" ∧ name.toList.all isNameChar then .ok (.named name)
  else .error (.invalid "environment" text
    "development, testing, production, or a name of [a-z0-9_-]")

def isProduction : Environment → Bool
  | production => true
  | _ => false

def fileName (environment : Environment) : String := s!"{environment}.yaml"

end Environment

end Migrations

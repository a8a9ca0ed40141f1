import Migrations.Text.LetterCase
import Migrations.Text.Search

/-!
# Kinds of Databases

Which kind of database a URL leads to.  The scheme of the URL, in any case of its letters, names
the kind.
-/

namespace Migrations

inductive DatabaseKind where
  /-- A server that keeps its data. -/
  | postgres
  /-- A database that lives as long as the process. -/
  | memory
  deriving DecidableEq, Repr

/-- Why a URL does not lead to a database. -/
inductive UrlFault where
  | noScheme (url : String)
  | unknownScheme (scheme : String)
  deriving DecidableEq, Repr

def UrlFault.message : UrlFault → String
  | noScheme url => s!"Invalid database URL: {url}"
  | unknownScheme scheme => s!"Unsupported database backend: {scheme}"

namespace DatabaseKind

instance : ToString DatabaseKind := ⟨fun | postgres => "postgresql" | memory => "memory"⟩

/-- The kind that a scheme names. -/
def ofScheme (scheme : String) : Except UrlFault DatabaseKind :=
  let name := Text.lower scheme
  if name = "postgresql" ∨ name = "postgres" then .ok .postgres
  else if name = "memory" then .ok .memory
  else .error (.unknownScheme scheme)

def ofUrl (url : String) : Except UrlFault DatabaseKind :=
  match Text.breakOn "://".toList url.toList with
  | some (scheme, _) => ofScheme (String.ofList scheme)
  | none => .error (.noScheme url)

end DatabaseKind

end Migrations

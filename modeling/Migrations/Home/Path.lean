import Migrations.Text.Blank
import Migrations.Text.Search

/-!
# Paths

A path is a text of names with slashes between them.  It is absolute when it starts with a slash,
and then joining it to a directory leaves the directory out.
-/

namespace Migrations

structure Path where
  text : String
  deriving DecidableEq, Repr, Inhabited

namespace Path

instance : ToString Path := ⟨Path.text⟩

def isAbsolute (path : Path) : Bool := path.text.toList.head? == some '/'

/-- The path below `dir`; an absolute path stays as it is. -/
def join (dir : Path) (path : String) : Path :=
  if (Path.mk path).isAbsolute then ⟨path⟩
  else if dir.text.isEmpty || dir.text.toList.getLast? == some '/' then ⟨dir.text ++ path⟩
  else ⟨dir.text ++ "/" ++ path⟩

/-- The texts between the slashes of the path. -/
def names (path : Path) : List String :=
  (Text.pieces (· == '/') path.text.toList).map String.ofList

def fileName (path : Path) : String :=
  match (path.names.filter (fun name => name ≠ "" && name ≠ ".")).getLast? with
  | some name => if name = ".." then path.text else name
  | none => path.text

end Path

end Migrations

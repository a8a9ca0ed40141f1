import Migrations.Home.Path

/-!
# File Trees

The files that a migrations home consists of: a finite tree of directories and files.  A place in
the tree is the list of names that leads to it from the root; the root itself is always there.
Reading and writing go through paths, which are resolved name by name, so that every name but the
last has to lead to a directory.
-/

namespace Migrations

/-! ## Places and nodes -/

/-- What stands at a place of the tree. -/
inductive Home.Node where
  | folder
  /-- A file with its bytes, and whether it may be run as a program. -/
  | file (bytes : ByteArray) (executable : Bool)

/-- Why a file or directory could not be used. -/
inductive FileFault where
  | missing (path : Path)
  | notFolder (path : Path)
  | notFile (path : Path)
  | taken (path : Path)
  | notText (path : Path)
  | notProgram (path : Path)
  | badName (path : Path)
  deriving DecidableEq, Repr

def FileFault.message : FileFault → String
  | missing path => s!"{path}: no such file or directory"
  | notFolder path => s!"{path}: not a directory"
  | notFile path => s!"{path}: not a file"
  | taken path => s!"{path}: file exists"
  | notText path => s!"{path}: stream did not contain valid UTF-8"
  | notProgram path => s!"{path}: not a program"
  | badName path => s!"{path}: invalid file name"

structure Home where
  nodes : List (List String × Home.Node) := []

namespace Home

def node? (home : Home) (place : List String) : Option Node :=
  if place.isEmpty then some .folder
  else (home.nodes.find? (fun entry => entry.1 == place)).map Prod.snd

def isFolderAt (home : Home) (place : List String) : Bool :=
  match home.node? place with
  | some .folder => true
  | _ => false

def set (home : Home) (place : List String) (node : Node) : Home :=
  ⟨home.nodes.filter (fun entry => entry.1 != place) ++ [(place, node)]⟩

/-! ## Resolving paths -/

/-- The place that the names of a path lead to from a place: a single dot and an empty name stay
there, two dots go up, and each of them can only be taken from a directory. -/
def walk (home : Home) (path : Path) (place : List String) :
    List String → Except FileFault (List String)
  | [] => .ok place
  | name :: names =>
    match home.node? place with
    | none => .error (.missing path)
    | some (.file ..) => .error (.notFolder path)
    | some .folder =>
      if name = "" ∨ name = "." then home.walk path place names
      else if name = ".." then home.walk path place.dropLast names
      else home.walk path (place ++ [name]) names

/-- The place of a path; a relative path starts at the root, and no path is empty. -/
def place (home : Home) (path : Path) : Except FileFault (List String) :=
  if path.text.isEmpty then .error (.missing path) else home.walk path [] path.names

def find (home : Home) (path : Path) : Except FileFault Node := do
  match home.node? (← home.place path) with
  | some node => .ok node
  | none => .error (.missing path)

/-- What stands at a path, if anything does. -/
def find? (home : Home) (path : Path) : Option Node := (home.find path).toOption

def hasPath (home : Home) (path : Path) : Bool := (home.find? path).isSome

def isFolder (home : Home) (path : Path) : Bool :=
  match home.find? path with
  | some .folder => true
  | _ => false

def isFile (home : Home) (path : Path) : Bool :=
  match home.find? path with
  | some (.file ..) => true
  | _ => false

/-! ## Reading -/

def read (home : Home) (path : Path) : Except FileFault ByteArray :=
  match home.find path with
  | .ok (.file bytes _) => .ok bytes
  | .ok .folder => .error (.notFile path)
  | .error fault => .error fault

def readText (home : Home) (path : Path) : Except FileFault String :=
  match home.read path with
  | .error fault => .error fault
  | .ok bytes =>
    match String.fromUTF8? bytes with
    | some text => .ok text
    | none => .error (.notText path)

/-- One name in a directory.  The name is missing when its bytes are not text. -/
structure Entry where
  name? : Option String
  isFile : Bool
  deriving DecidableEq, Repr

/-- The names in the directory at a place. -/
def entriesAt (home : Home) (place : List String) : List Entry :=
  home.nodes.filterMap fun (other, node) =>
    match other.getLast? with
    | some name =>
      if other.dropLast = place then
        some ⟨some name, match node with | .folder => false | .file .. => true⟩
      else none
    | none => none

/-- The names in a directory, in no particular order. -/
def list (home : Home) (path : Path) : Except FileFault (List Entry) :=
  match home.place path with
  | .error fault => .error fault
  | .ok place =>
    match home.node? place with
    | some .folder => .ok (home.entriesAt place)
    | some (.file ..) => .error (.notFolder path)
    | none => .error (.missing path)

/-! ## Writing -/

/-- Whether a file can have the name: it has at most 255 bytes, none of them zero. -/
def isName (name : String) : Bool := name.utf8ByteSize ≤ 255 && !name.contains '\x00'

/-- The place where a file can be written at a path: its parent is a directory, no directory stands
there, and files can have its name. -/
def target (home : Home) (path : Path) : Except FileFault (List String) :=
  match home.place path with
  | .error fault => .error fault
  | .ok place =>
    if home.isFolderAt place then .error (.notFile path)
    else if !place.all isName then .error (.badName path)
    else if home.isFolderAt place.dropLast then .ok place
    else .error (.missing path)

/-- The tree with a file of these bytes at a path.  A file that was there keeps its mode. -/
def write (home : Home) (path : Path) (bytes : ByteArray) : Except FileFault Home :=
  match home.target path with
  | .error fault => .error fault
  | .ok place =>
    let executable := match home.node? place with
      | some (.file _ executable) => executable
      | _ => false
    .ok (home.set place (.file bytes executable))

/-- The tree with a new file at a path, where nothing may stand yet. -/
def create (home : Home) (path : Path) (bytes : ByteArray) : Except FileFault Home :=
  if home.hasPath path then .error (.taken path) else home.write path bytes

/-- The tree with directories at every place on the way of the names. -/
def makeFolders (home : Home) (place : List String) : List String → Except FileFault Home
  | [] => .ok home
  | name :: names =>
    if name = "" ∨ name = "." then home.makeFolders place names
    else if name = ".." then home.makeFolders place.dropLast names
    else
      let next := place ++ [name]
      match home.node? next with
      | some .folder => home.makeFolders next names
      | some (.file ..) => .error (.taken ⟨"/" ++ "/".intercalate next⟩)
      | none => (home.set next .folder).makeFolders next names

/-- The tree with a directory at a path, and at every path above it. -/
def createFolder (home : Home) (path : Path) : Except FileFault Home :=
  home.makeFolders [] path.names

/-- The tree without what stands at a path and below it, and whether anything stood there. -/
def remove (home : Home) (path : Path) : Home × Bool :=
  match home.place path with
  | .error _ => (home, false)
  | .ok place =>
    if place.isEmpty || (home.node? place).isNone then (home, false)
    else (⟨home.nodes.filter (fun entry => !place.isPrefixOf entry.1)⟩, true)

end Home

end Migrations

import Migrations.Home.Tree
import Migrations.Script.Placeholder
import Migrations.Shell.Command
import Migrations.Text.Encoding

/-!
# Shell Machines

What a shell program acts on: the files, its variables and arguments, its input, and what it has
written so far.  Writing goes to a sink, which is one of the two outputs that the caller reads, a
pipe, a file or nowhere.  Words become fields here, once the outputs of programs and the words of
parameters are put in.
-/

namespace Migrations.Shell

/-- Where what is written goes. -/
inductive Sink where
  | out
  | err
  | pipe
  | file (path : Path)
  | nowhere
  deriving DecidableEq, Repr

/-- How a program ends. -/
inductive Ending where
  | exit (status : Nat)
  | signal (number : Nat)
  deriving DecidableEq, Repr

def Ending.describe : Ending → String
  | exit status => s!"exit status: {status}"
  | signal number =>
    let names := [(1, "SIGHUP"), (2, "SIGINT"), (3, "SIGQUIT"), (6, "SIGABRT"), (9, "SIGKILL"),
      (10, "SIGUSR1"), (12, "SIGUSR2"), (13, "SIGPIPE"), (14, "SIGALRM"), (15, "SIGTERM")]
    match names.lookup number with
    | some name => s!"signal: {number} ({name})"
    | none => s!"signal: {number}"

/-- The state of a shell program. -/
structure Machine where
  home : Home
  vars : Variables
  name : String
  arguments : List String := []
  /-- The directory that relative paths start from. -/
  dir : Path := ⟨""⟩
  /-- Whether the first failure of a command that nobody asks about ends the program. -/
  strict : Bool := false
  /-- What is left of the input. -/
  input : ByteArray := .empty
  out : ByteArray := .empty
  err : ByteArray := .empty
  piped : ByteArray := .empty
  status : Nat := 0
  ending : Option Ending := none

/-- Where the outputs of a command go. -/
structure Streams where
  out : Sink := .out
  err : Sink := .err
  deriving DecidableEq, Repr

namespace Machine

def finish (machine : Machine) (status : Nat) : Machine := { machine with status := status }

def write (machine : Machine) (sink : Sink) (bytes : ByteArray) : Machine :=
  match sink with
  | .out => { machine with out := machine.out ++ bytes }
  | .err => { machine with err := machine.err ++ bytes }
  | .pipe => { machine with piped := machine.piped ++ bytes }
  | .nowhere => machine
  | .file path =>
    let before := (machine.home.read path).toOption.getD .empty
    match machine.home.write path (before ++ bytes) with
    | .ok home => { machine with home := home }
    | .error _ => machine

def say (machine : Machine) (sink : Sink) (text : String) : Machine :=
  machine.write sink text.toUTF8

/-! ## Words -/

/-- What stands for the number of the running process. -/
def processId : String := "2"

def value? (machine : Machine) (name : String) : Option (List Char) :=
  if name = "#" then some (toString machine.arguments.length).toList
  else if name = "?" then some (toString machine.status).toList
  else if name = "0" then some machine.name.toList
  else if name = "$" then some processId.toList
  else if name = "@" ∨ name = "*" then
    if machine.arguments.isEmpty then none
    else some (" ".intercalate machine.arguments).toList
  else match name.toNat? with
    | some n => (machine.arguments[n - 1]?).map String.toList
    | none => (machine.vars.get? name).map String.toList

def value (machine : Machine) (name : String) (form : Form) : List Char :=
  let text := (machine.value? name).getD []
  if form = .length then (toString text.length).toList else text

/-- Adds a character to the last of the fields. -/
def addTo (fields : List (List Char)) (inField : Bool) (cs : List Char) : List (List Char) :=
  if inField then
    match fields.getLast? with
    | some last => fields.dropLast ++ [last ++ cs]
    | none => [cs]
  else fields ++ [cs]

/-- Whether a character separates the fields of an unquoted value. -/
def isSeparator (c : Char) : Bool := c == ' ' || c == '\t' || c == '\n'

/-- Splits an unquoted value at its blanks, after the fields so far. -/
def split (fields : List (List Char)) (inField : Bool) :
    List Char → List (List Char) × Bool
  | [] => (fields, inField)
  | c :: cs =>
    if isSeparator c then split fields false cs
    else split (addTo fields inField [c]) true cs

/-- The fields of a word, after the fields so far. -/
def fieldsOf (machine : Machine) (fields : List (List Char)) (inField : Bool) :
    Word → List (List Char)
  | [] => fields
  | .plain c :: rest => machine.fieldsOf (addTo fields inField [c]) true rest
  | .quoted c :: rest => machine.fieldsOf (addTo fields inField [c]) true rest
  | .parameter name form inQuotes :: rest =>
    if inQuotes ∧ name = "@" ∧ form = .value then
      match machine.arguments.map String.toList with
      | [] => machine.fieldsOf fields inField rest
      | first :: others => machine.fieldsOf (addTo fields inField first ++ others) true rest
    else
      let (fields, inField) := insert fields inField inQuotes (machine.value name form)
      machine.fieldsOf fields inField rest
  | .inserted text inQuotes :: rest =>
    let (fields, inField) := insert fields inField inQuotes text
    machine.fieldsOf fields inField rest
  | .output .. :: rest => machine.fieldsOf fields inField rest
where
  insert (fields : List (List Char)) (inField inQuotes : Bool) (text : List Char) :
      List (List Char) × Bool :=
    if inQuotes then (addTo fields inField text, true) else split fields inField text

/-- The fields of words; a word of empty quotes is an empty field. -/
def fields (machine : Machine) (words : List Word) : List String :=
  words.flatMap fun word =>
    if word.isEmpty then [""] else (machine.fieldsOf [] false word).map String.ofList

def text (machine : Machine) (word : Word) : List Char :=
  word.flatMap fun piece =>
    match piece with
    | .plain c => [c]
    | .quoted c => [c]
    | .parameter name form _ => machine.value name form
    | .inserted text _ => text
    | .output .. => []

/-! ## Patterns -/

/-- The characters of a pattern, each with whether it can stand for others. -/
def pattern (machine : Machine) (word : Word) : List (Char × Bool) :=
  word.flatMap fun piece =>
    match piece with
    | .plain c => [(c, true)]
    | .quoted c => [(c, false)]
    | .parameter name form inQuotes => (machine.value name form).map fun c => (c, !inQuotes)
    | .inserted text inQuotes => text.map fun c => (c, !inQuotes)
    | .output .. => []

/-- Whether a pattern matches a text: a star stands for any characters, a question mark for one. -/
def isMatch : List (Char × Bool) → List Char → Bool
  | [], cs => cs.isEmpty
  | (p, active) :: ps, cs =>
    if active && p == '*' then starMatch ps cs
    else match cs with
      | [] => false
      | c :: cs => ((active && p == '?') || p == c) && isMatch ps cs
where
  /-- Whether the rest of a pattern matches a text from some place on. -/
  starMatch (ps : List (Char × Bool)) : List Char → Bool
    | [] => isMatch ps []
    | c :: cs => isMatch ps (c :: cs) || starMatch ps cs

/-- The text without what a pattern matches at its start, the shortest or the longest part. -/
def withoutStart (longest : Bool) (pattern : List (Char × Bool)) (cs : List Char) : List Char :=
  let lengths := List.range (cs.length + 1)
  let lengths := if longest then lengths.reverse else lengths
  match lengths.find? (fun n => isMatch pattern (cs.take n)) with
  | some n => cs.drop n
  | none => cs

def withoutEnd (longest : Bool) (pattern : List (Char × Bool)) (cs : List Char) : List Char :=
  let lengths := List.range (cs.length + 1)
  let lengths := if longest then lengths else lengths.reverse
  match lengths.find? (fun n => isMatch pattern (cs.drop n)) with
  | some n => cs.take n
  | none => cs

/-! ## Files -/

def path (machine : Machine) (text : String) : Path := machine.dir.join text

end Machine

end Migrations.Shell

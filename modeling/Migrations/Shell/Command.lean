import Migrations.Home.Path

/-!
# Shell Commands

The commands that hook programs consist of: simple commands with their redirections, joined by
sequence, condition, choice, loop and pipe.  The words of a command are kept in pieces, because
quoted and unquoted characters differ when the word is used.
-/

namespace Migrations.Shell

/-! ## Words -/

/-- What is made of the value of a parameter.  A word that goes with it is kept as it is written. -/
inductive Form where
  /-- The value itself. -/
  | value
  /-- The number of its characters. -/
  | length
  /-- The word, when there is no value; an empty value may count as none. -/
  | fallback (orEmpty : Bool) (word : List Char)
  | initial (orEmpty : Bool) (word : List Char)
  /-- The word, when there is a value. -/
  | instead (orEmpty : Bool) (word : List Char)
  /-- A report with the word, and the end of the program, when there is no value. -/
  | demanded (orEmpty : Bool) (word : List Char)
  | trimmed (atEnd longest : Bool) (word : List Char)
  deriving DecidableEq, Repr

inductive Piece where
  | plain (c : Char)
  | quoted (c : Char)
  /-- The value of a parameter, perhaps inside of quotes. -/
  | parameter (name : String) (form : Form) (inQuotes : Bool)
  /-- The output of a program, given by its text. -/
  | output (program : List Char) (inQuotes : Bool)
  /-- A text that was put in for another piece. -/
  | inserted (text : List Char) (inQuotes : Bool)
  deriving DecidableEq, Repr

abbrev Word := List Piece

/-! ## Commands -/

/-- Where a stream is led. -/
inductive Redirect where
  | input (file : Word)
  | output (stream : Nat) (file : Word)
  | append (stream : Nat) (file : Word)
  /-- A stream goes where another one goes. -/
  | duplicate (stream source : Nat)
  deriving DecidableEq, Repr

inductive Command where
  | nothing
  | simple (line : Nat) (assignments : List (String × Word)) (words : List Word)
      (redirects : List Redirect)
  /-- One command after the other. -/
  | sequence (first second : Command)
  /-- The second command runs if the first succeeds. -/
  | both (first second : Command)
  /-- The second command runs if the first fails. -/
  | either (first second : Command)
  /-- Succeeds if the command fails. -/
  | negated (command : Command)
  /-- The output of the first command is the input of the second. -/
  | pipe (first second : Command)
  | branch (condition yes no : Command)
  /-- The first command runs if a word matches one of the patterns, the second if not. -/
  | choose (line : Nat) (word : Word) (patterns : List Word) (body otherwise : Command)
  /-- A command as often as its condition fails, or else succeeds. -/
  | loop (untilSuccess : Bool) (condition body : Command)
  /-- A command for each field of words. -/
  | each (line : Nat) (name : String) (words : List Word) (body : Command)
  /-- A command that leaves the variables as they were. -/
  | subshell (command : Command)
  /-- A command with redirections around it. -/
  | redirected (line : Nat) (command : Command) (redirects : List Redirect)
  deriving DecidableEq, Repr

end Migrations.Shell

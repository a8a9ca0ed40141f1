import Migrations.Script.Section

/-!
# Statements

How the text of a section is cut into statements.  Comment lines are left out.  A statement ends on
the line that contains the delimiter, before its last occurrence there, or, when the delimiter has
to fill a line, on a line of the delimiter alone.  A comment such as `-- @DELIMITER $$` puts another
delimiter in force for the lines after it.  A text can also be sent whole, as one statement.
-/

namespace Migrations

/-- How texts are cut into statements. -/
structure StatementRules where
  /-- What ends a statement until a comment says otherwise. -/
  delimiter : String := ";"
  /-- Whether the delimiter ends a statement only on a line of its own. -/
  fullLine : Bool := false
  /-- Whether a text is one statement as it stands. -/
  whole : Bool := false
  deriving DecidableEq, Repr, Inhabited

namespace StatementRules

open Text

/-! ## Comments -/

/-- Whether a line without blanks around it is a comment. -/
def isComment (trimmed : List Char) : Bool := (Sections.afterOpener? trimmed).isSome

/-- The text after the word, whatever the case of its letters. -/
def afterWord? (word cs : List Char) : Option (List Char) :=
  if (cs.take word.length).map Char.toUpper = word then some (cs.drop word.length) else none

/-- The delimiter that a comment puts in force: after the comment opener, perhaps two slashes, the
word `@DELIMITER` and blanks. -/
def directive? (trimmed : List Char) : Option (List Char) := do
  let rest ← Sections.afterOpener? trimmed
  let rest := trimLeft isBlank rest
  let rest := trimLeft isBlank ((after? ['/', '/'] rest).getD rest)
  let rest ← afterWord? "@DELIMITER".toList rest
  let delimiter := (trimLeft isBlank rest).takeWhile (fun c => !isBlank c)
  if (rest.takeWhile isBlank).isEmpty || delimiter.isEmpty then none else some delimiter

/-! ## Cutting -/

def flush (collected : List Char) : List (List Char) :=
  let statement := trim collected
  if statement.isEmpty then [] else [statement]

def ends (fullLine : Bool) (delimiter trimmed : List Char) : Bool :=
  if fullLine then trimmed == delimiter else occursIn delimiter trimmed

/-- The statements in the lines, with the delimiter in force and the text collected so far. -/
def fromLines (fullLine : Bool) (delimiter collected : List Char) :
    List (List Char) → List (List Char)
  | [] => flush collected
  | line :: rest =>
    let trimmed := trim line
    if isComment trimmed then
      fromLines fullLine ((directive? trimmed).getD delimiter) collected rest
    else if ends fullLine delimiter trimmed then
      flush (collected ++ (beforeLast delimiter line).getD []) ++
        fromLines fullLine delimiter [] rest
    else if trimmed.isEmpty then
      fromLines fullLine delimiter collected rest
    else
      fromLines fullLine delimiter (collected ++ line ++ ['\n']) rest

/-- Whether a line says nothing to a database. -/
def isIdle (line : List Char) : Bool :=
  let trimmed := trim line
  trimmed.isEmpty || isComment trimmed

/-- The statements of a text given by its characters. -/
def cut (rules : StatementRules) (text : List Char) : List (List Char) :=
  if rules.whole then
    let text := unixEnds text
    if (lines text).all isIdle then [] else [text]
  else fromLines rules.fullLine rules.delimiter.toList [] (lines text)

def statements (rules : StatementRules) (text : String) : List String :=
  (rules.cut text.toList).map String.ofList

end StatementRules

end Migrations

import Migrations.Text.Blank
import Migrations.Text.Line
import Migrations.Text.Search

/-!
# Sections

The body of a script has an apply section and, after the first undo marker, an undo section.  A
marker is a line comment of the form `-- //@UNDO`: a comment opener, blanks, two slashes, blanks and
the word `@UNDO`, after which anything may follow.  The marker line belongs to neither section, and
every line of a section ends with a line feed.
-/

namespace Migrations

/-- The two parts of a script's body. -/
structure Sections where
  /-- The lines that apply the change. -/
  up : String
  /-- The lines that undo it; nothing when the body has no marker. -/
  down : Option String
  deriving DecidableEq, Repr

namespace Sections

open Text

/-- Spaces and tabs, the blanks that may stand inside a marker. -/
def isGap (c : Char) : Bool := c == ' ' || c == '\t'

/-- The text after the opener of a line comment, two hyphens or two slashes. -/
def afterOpener? (cs : List Char) : Option (List Char) :=
  match after? ['-', '-'] cs with
  | some rest => some rest
  | none => after? ['/', '/'] cs

def isMarker (line : List Char) : Bool :=
  match afterOpener? (trimLeft isBlank line) with
  | none => false
  | some rest =>
    match after? ['/', '/'] (trimLeft isGap rest) with
    | none => false
    | some rest => "@UNDO".toList.isPrefixOf (trimLeft isGap rest)

/-- The sections of a body given as its lines. -/
def ofLines (ls : List (List Char)) : Sections where
  up := String.ofList (unlines (ls.takeWhile (fun line => !isMarker line)))
  down :=
    match ls.dropWhile (fun line => !isMarker line) with
    | [] => none
    | _ :: undo => some (String.ofList (unlines undo))

def ofText (text : String) : Sections := ofLines (lines text.toList)

end Sections

end Migrations

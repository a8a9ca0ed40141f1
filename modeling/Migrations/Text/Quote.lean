import Migrations.Text.Category

/-!
# Quoted Texts

A text between quotes in which everything that cannot be seen is written as an escape: quotes,
backslashes, line ends, marks that join the character before them, and characters without a glyph.
-/

namespace Migrations.Text

/-- Whether a character cannot be seen on its own. -/
def isHidden (c : Char) : Bool :=
  c != ' ' && match Category.ofChar c with
    | .control | .format | .surrogate | .privateUse | .unassigned => true
    | .spaceSeparator | .lineSeparator | .paragraphSeparator => true
    | .nonspacingMark | .enclosingMark => true
    | _ => false

/-- How a character is written between quotes. -/
def escapeQuoted (c : Char) : List Char :=
  if c = '"' then ['\\', '"']
  else if c = '\\' then ['\\', '\\']
  else if c = '\n' then ['\\', 'n']
  else if c = '\r' then ['\\', 'r']
  else if c = '\t' then ['\\', 't']
  else if c.toNat = 0 then ['\\', '0']
  else if isHidden c then ['\\', 'u', '\x7b'] ++ Nat.toDigits 16 c.toNat ++ ['\x7d']
  else [c]

def quoted (text : String) : String :=
  String.ofList ('"' :: text.toList.flatMap escapeQuoted ++ ['"'])

end Migrations.Text

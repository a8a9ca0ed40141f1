import Migrations.Text.Search

/-!
# Slices of Texts

Texts by the offsets of their bytes.  An offset can stand inside a character, and a slice that would
start or end there is refused, as is one that ends before it starts or after the end of the text.
-/

namespace Migrations.Text

/-- The bytes of a text in UTF-8. -/
def bytes (cs : List Char) : List UInt8 := cs.flatMap String.utf8EncodeChar

/-- The number of bytes of a text. -/
def size (cs : List Char) : Nat := (bytes cs).length

/-- The parts of a text before and after an offset, unless it stands inside a character or after the
end. -/
def split? : List Char → Nat → Option (List Char × List Char)
  | cs, 0 => some ([], cs)
  | [], _ + 1 => none
  | c :: cs, offset =>
    if c.utf8Size ≤ offset then
      (split? cs (offset - c.utf8Size)).map fun (before, after) => (c :: before, after)
    else none

/-- The text between two offsets, unless it is refused. -/
def slice? (cs : List Char) (start stop : Nat) : Option (List Char) := do
  guard (start ≤ stop)
  let (front, _) ← split? cs stop
  let (_, part) ← split? front start
  return part

/-- The offset of the first occurrence of `d` at or after an offset, if there is one, unless the
search cannot start there. -/
def findFrom? (d cs : List Char) (offset : Nat) : Option (Option Nat) := do
  let rest ← slice? cs offset (size cs)
  return (breakOn d rest).map fun (front, _) => offset + size front

end Migrations.Text

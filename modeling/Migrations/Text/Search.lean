/-!
# Searching in Texts

Finding one text in another: the part before the last occurrence, the parts around the first one,
and whether there is any.  The empty text occurs everywhere, last of all at the end.
-/

namespace Migrations.Text

/-- The text before the last occurrence of `d`, if there is one. -/
def beforeLast (d : List Char) : List Char → Option (List Char)
  | [] => if d.isEmpty then some [] else none
  | c :: cs =>
    match beforeLast d cs with
    | some before => some (c :: before)
    | none => if d.isPrefixOf (c :: cs) then some [] else none

def occursIn (d cs : List Char) : Bool := (beforeLast d cs).isSome

/-- The texts before and after the first occurrence of `d`, if there is one. -/
def breakOn (d : List Char) : List Char → Option (List Char × List Char)
  | [] => if d.isEmpty then some ([], []) else none
  | c :: cs =>
    if d.isPrefixOf (c :: cs) then some ([], (c :: cs).drop d.length)
    else (breakOn d cs).map fun (before, after) => (c :: before, after)

/-- The text after `p`, when the text starts with `p`. -/
def after? (p cs : List Char) : Option (List Char) :=
  if p.isPrefixOf cs then some (cs.drop p.length) else none

def before? (s cs : List Char) : Option (List Char) :=
  (after? s.reverse cs.reverse).map List.reverse

/-- Whether `d` occurs in the text `s`. -/
def contains (s d : String) : Bool := occursIn d.toList s.toList

end Migrations.Text

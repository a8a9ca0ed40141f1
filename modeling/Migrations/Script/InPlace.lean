import Migrations.Script.Placeholder
import Migrations.Text.Slice

/-!
# Filling in Place

How a text is filled without taking it apart: two nested loops move an offset along its bytes and
copy slices of it.  The outer loop goes from opener to opener; the inner one goes from brace to brace
until it has found the brace that closes the placeholder.  Whether an opener or a brace is escaped is
seen from the byte before it.  A slice that is refused stops everything.
-/

namespace Migrations

namespace InPlace

open Text Placeholder

/-- Where the loops stand. -/
inductive Stage where
  /-- There is an opener at `start`; all before `offset` is filled. -/
  | opener (start offset : Nat) (out : List Char)
  /-- The name of the placeholder at `start` is read up to `offset`, and the next brace is at
  `close`. -/
  | name (start offset : Nat) (close : Option Nat) (name out : List Char)
  | finished (out : List Char)
  deriving DecidableEq, Repr

/-- Whether the byte before an offset is a backslash; only those from `least` on are looked at. -/
def escaped? (text : List Char) (least offset : Nat) : Option Bool :=
  if least < offset then (bytes text)[offset - 1]?.map (· == 92) else some false

/-- The stage of the first opener; a text without openers is filled. -/
def first (text : List Char) : Stage :=
  match breakOn opener text with
  | some (front, _) => .opener (size front) 0 []
  | none => .finished text

/-- The stage of the next opener.  When there is none, the rest of the text is copied. -/
def seek (text : List Char) (offset : Nat) (out : List Char) : Option Stage := do
  match ← findFrom? opener text offset with
  | some start => return .opener start offset out
  | none => return .finished (out ++ (← slice? text offset (size text)))

variable (lookup : List Char → Option (List Char)) (text : List Char)

/-- One turn of a loop, unless a slice is refused. -/
def step : Stage → Option Stage
  | .opener start offset out => do
    if ← escaped? text 0 start then
      let part ← slice? text offset (start - 1)
      seek text (start + size opener) (out ++ part ++ opener)
    else
      let part ← slice? text offset start
      let offset := start + size opener
      return .name start offset (← findFrom? ['}'] text offset) [] (out ++ part)
  | .name start offset (some close) name out => do
    if ← escaped? text offset close then
      let part ← slice? text offset (close - 1)
      let offset := close + 1
      return .name start offset (← findFrom? ['}'] text offset) (name ++ part ++ ['}']) out
    else
      let part ← slice? text offset close
      let name := name ++ part
      seek text (close + 1) (out ++ (lookup name).getD (opener ++ name ++ ['}']))
  | .name start _ none _ out => do
    let rest ← slice? text start (size text)
    seek text (size text) (out ++ rest)
  | .finished out => return .finished out

/-- The stage after so many turns. -/
def run : Nat → Option Stage
  | 0 => some (first text)
  | n + 1 => (run n).bind (step lookup text)

end InPlace

end Migrations

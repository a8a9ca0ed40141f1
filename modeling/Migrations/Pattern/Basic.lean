import Migrations.Pattern.CharSet

/-!
# Patterns

Regular expressions over characters.  A pattern says which stretches of a text it covers: from a
position it leads to a set of end positions.  A text matches when the pattern covers a stretch that
starts anywhere in it.
-/

namespace Migrations

/-- A condition on the surroundings of a position. -/
inductive Look where
  | textStart
  | textEnd
  | lineStart
  | lineEnd
  | returnLineStart
  | returnLineEnd
  | wordBoundary
  | noWordBoundary
  | wordStart
  | wordEnd
  | wordStartHalf
  | wordEndHalf
  deriving DecidableEq, Repr

/-- A regular expression. -/
inductive Pattern where
  | empty
  | one (set : CharSet)
  | look (condition : Look) (words : CharSet)
  | seq (a b : Pattern)
  | alt (a b : Pattern)
  | repeated (a : Pattern) (least : Nat) (most : Option Nat)
  deriving Inhabited

namespace Look

def holds (word : Char → Bool) (before after : Option Char) : Look → Bool
  | textStart => before.isNone
  | textEnd => after.isNone
  | lineStart => before.isNone || before == some '\n'
  | lineEnd => after.isNone || after == some '\n'
  | returnLineStart =>
    before.isNone || before == some '\n' || (before == some '\r' && after != some '\n')
  | returnLineEnd =>
    after.isNone || after == some '\r' || (after == some '\n' && before != some '\r')
  | wordBoundary => before.any word != after.any word
  | noWordBoundary => before.any word == after.any word
  | wordStart => !before.any word && after.any word
  | wordEnd => before.any word && !after.any word
  | wordStartHalf => !before.any word
  | wordEndHalf => !after.any word

end Look

namespace Pattern

/-! ## Matching -/

/-- The positions that one more round leads to. -/
def onward (step : Nat → List Nat) (positions : List Nat) : List Nat :=
  (positions.flatMap step).eraseDups

def rounds (step : Nat → List Nat) : Nat → List Nat → List Nat
  | 0, positions => positions
  | n + 1, positions =>
    if positions.isEmpty then [] else rounds step n (onward step positions)

/-- The positions after at most so many rounds. -/
def upTo (step : Nat → List Nat) : Nat → List Nat → List Nat
  | 0, positions => positions
  | n + 1, positions => (positions ++ upTo step n (onward step positions)).eraseDups

/-- The ends of the stretches of the text that start at a position and that the pattern covers. -/
def ends (text : Array Char) : Pattern → Nat → List Nat
  | empty, i => [i]
  | one set, i =>
    match text[i]? with
    | some c => if set.has c then [i + 1] else []
    | none => []
  | look condition words, i =>
    let before := if i = 0 then none else text[i - 1]?
    if condition.holds (fun c => words.has c) before text[i]? then [i] else []
  | seq a b, i => onward (ends text b) (ends text a i)
  | alt a b, i => (ends text a i ++ ends text b i).eraseDups
  | repeated a least most, i =>
    let more := match most with
      | some most => min (most - least) (text.size + 1)
      | none => text.size + 1
    upTo (ends text a) more (rounds (ends text a) least [i])

def isMatch (pattern : Pattern) (text : String) : Bool :=
  let chars := text.toList.toArray
  (List.range (chars.size + 1)).any fun i => !(pattern.ends chars i).isEmpty

/-! ## Cost -/

def cost : Pattern → Nat
  | empty => 32
  | one set => if set.spans ≤ 1 then 32 else 32 + 60 * set.spans
  | look .. => 32
  | seq a b => a.cost + b.cost
  | alt a b => a.cost + b.cost + 32
  | repeated a least most =>
    match most with
    | some most => a.cost * most + 32
    | none => a.cost * max least 1 + 32

/-- The most room that a pattern may take. -/
def greatestCost : Nat := 10485760

end Pattern

end Migrations

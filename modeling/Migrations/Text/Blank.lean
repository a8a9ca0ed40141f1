/-!
# Blank Characters

White space as the standard property `White_Space` has it, and the operations on texts that are
stated through it: trimming, and cutting a text into words.  Texts are lists of characters here;
the modules of the domain work on these lists and convert at their borders.
-/

namespace Migrations.Text

/-! ## White space -/

/-- The characters with the property `White_Space`. -/
def isBlank (c : Char) : Bool :=
  let n := c.toNat
  (0x09 ≤ n && n ≤ 0x0D) || n == 0x20 || n == 0x85 || n == 0xA0 || n == 0x1680 ||
    (0x2000 ≤ n && n ≤ 0x200A) || n == 0x2028 || n == 0x2029 || n == 0x202F || n == 0x205F ||
    n == 0x3000

/-- A text without anything to see in it. -/
def allBlank (cs : List Char) : Bool := cs.all isBlank

/-! ## Trimming -/

/-- The text without its leading characters that satisfy `p`. -/
def trimLeft (p : Char → Bool) (cs : List Char) : List Char := cs.dropWhile p

def trimRight (p : Char → Bool) (cs : List Char) : List Char := (cs.reverse.dropWhile p).reverse

def trim (cs : List Char) : List Char := trimRight isBlank (trimLeft isBlank cs)

/-! ## Cutting -/

/-- Cuts a text at every character that satisfies `p`; a text with `n` such characters has `n + 1`
pieces, some of them perhaps empty. -/
def pieces (p : Char → Bool) : List Char → List (List Char)
  | [] => [[]]
  | c :: cs =>
    if p c then [] :: pieces p cs
    else match pieces p cs with
      | [] => [[c]]
      | w :: ws => (c :: w) :: ws

/-- The maximal runs of characters that do not satisfy `p`. -/
def runs (p : Char → Bool) (cs : List Char) : List (List Char) :=
  (pieces p cs).filter (fun w => !w.isEmpty)

def words (cs : List Char) : List (List Char) := runs isBlank cs

/-- Texts in order, with `sep` between neighbours. -/
def join (sep : List Char) : List (List Char) → List Char
  | [] => []
  | [w] => w
  | w :: ws => w ++ sep ++ join sep ws

end Migrations.Text

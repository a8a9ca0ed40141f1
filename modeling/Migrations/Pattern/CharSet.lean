import Migrations.Text.Blank
import Migrations.Text.LetterCase
import Migrations.Text.Search

/-!
# Sets of Characters

The sets of characters that a pattern can name: single characters, ranges, the properties of
characters, and what the set operations make of them.
-/

namespace Migrations

/-- A set of characters. -/
inductive CharSet where
  | range (first last : Char)
  | categories (which : List Text.Category)
  | blanks
  | none
  | union (a b : CharSet)
  | inter (a b : CharSet)
  | diff (a b : CharSet)
  | compl (a : CharSet)
  /-- The characters with a case variant in the set. -/
  | folded (a : CharSet)
  deriving Inhabited

namespace CharSet

open Text

def has (c : Char) : CharSet → Bool
  | range first last => first ≤ c && c ≤ last
  | categories which => which.contains (Category.ofChar c)
  | blanks => isBlank c
  | none => false
  | union a b => a.has c || b.has c
  | inter a b => a.has c && b.has c
  | diff a b => a.has c && !b.has c
  | compl a => !a.has c
  | folded a => a.has c || (caseVariants c).any fun d => a.has d

def char (c : Char) : CharSet := range c c

def any : CharSet := compl none

/-- The union of ranges of code points. -/
def ofRanges (ranges : List (Nat × Nat)) : CharSet :=
  ranges.foldl (fun set r => union set (range (Char.ofNat r.1) (Char.ofNat r.2))) none

/-- The characters on which two sets differ. -/
def symmDiff (a b : CharSet) : CharSet := union (diff a b) (diff b a)

/-! ## Named sets -/

/-- The decimal digits of all scripts. -/
def digits : CharSet := categories [.decimalNumber]

/-- The characters with the property `Alphabetic`, marks included. -/
def letters : CharSet :=
  union (categories [.uppercaseLetter, .lowercaseLetter, .titlecaseLetter, .modifierLetter,
    .otherLetter, .letterNumber]) (ofRanges letterSymbols)

/-- The characters of which words consist: letters, marks, digits, connectors and joiners. -/
def wordChars : CharSet :=
  union (union letters (categories [.nonspacingMark, .spacingMark, .enclosingMark,
    .decimalNumber, .connectorPunctuation])) (ofRanges [(0x200C, 0x200D)])

/-- The digits, blanks and word characters of ASCII. -/
def asciiDigits : CharSet := ofRanges [(0x30, 0x39)]

def asciiBlanks : CharSet := ofRanges [(0x09, 0x0D), (0x20, 0x20)]

def asciiWordChars : CharSet :=
  ofRanges [(0x30, 0x39), (0x41, 0x5A), (0x5F, 0x5F), (0x61, 0x7A)]

/-- The bracketed classes of ASCII characters by name. -/
def asciiClass? : String → Option CharSet
  | "alnum" => some (ofRanges [(0x30, 0x39), (0x41, 0x5A), (0x61, 0x7A)])
  | "alpha" => some (ofRanges [(0x41, 0x5A), (0x61, 0x7A)])
  | "ascii" => some (ofRanges [(0x00, 0x7F)])
  | "blank" => some (ofRanges [(0x09, 0x09), (0x20, 0x20)])
  | "cntrl" => some (ofRanges [(0x00, 0x1F), (0x7F, 0x7F)])
  | "digit" => some asciiDigits
  | "graph" => some (ofRanges [(0x21, 0x7E)])
  | "lower" => some (ofRanges [(0x61, 0x7A)])
  | "print" => some (ofRanges [(0x20, 0x7E)])
  | "punct" => some (ofRanges [(0x21, 0x2F), (0x3A, 0x40), (0x5B, 0x60), (0x7B, 0x7E)])
  | "space" => some asciiBlanks
  | "upper" => some (ofRanges [(0x41, 0x5A)])
  | "word" => some asciiWordChars
  | "xdigit" => some (ofRanges [(0x30, 0x39), (0x41, 0x46), (0x61, 0x66)])
  | _ => Option.none

/-- The categories that a property name stands for. -/
def categoriesNamed? : String → Option (List Category)
  | "l" | "letter" => some [.uppercaseLetter, .lowercaseLetter, .titlecaseLetter,
      .modifierLetter, .otherLetter]
  | "lc" | "casedletter" => some [.uppercaseLetter, .lowercaseLetter, .titlecaseLetter]
  | "lu" | "uppercaseletter" => some [.uppercaseLetter]
  | "ll" | "lowercaseletter" => some [.lowercaseLetter]
  | "lt" | "titlecaseletter" => some [.titlecaseLetter]
  | "lm" | "modifierletter" => some [.modifierLetter]
  | "lo" | "otherletter" => some [.otherLetter]
  | "m" | "mark" | "combiningmark" => some [.nonspacingMark, .spacingMark, .enclosingMark]
  | "mn" | "nonspacingmark" => some [.nonspacingMark]
  | "mc" | "spacingmark" => some [.spacingMark]
  | "me" | "enclosingmark" => some [.enclosingMark]
  | "n" | "number" => some [.decimalNumber, .letterNumber, .otherNumber]
  | "nd" | "decimalnumber" | "digit" => some [.decimalNumber]
  | "nl" | "letternumber" => some [.letterNumber]
  | "no" | "othernumber" => some [.otherNumber]
  | "p" | "punctuation" | "punct" => some [.connectorPunctuation, .dashPunctuation,
      .openPunctuation, .closePunctuation, .initialPunctuation, .finalPunctuation,
      .otherPunctuation]
  | "pc" | "connectorpunctuation" => some [.connectorPunctuation]
  | "pd" | "dashpunctuation" => some [.dashPunctuation]
  | "ps" | "openpunctuation" => some [.openPunctuation]
  | "pe" | "closepunctuation" => some [.closePunctuation]
  | "pi" | "initialpunctuation" => some [.initialPunctuation]
  | "pf" | "finalpunctuation" => some [.finalPunctuation]
  | "po" | "otherpunctuation" => some [.otherPunctuation]
  | "s" | "symbol" => some [.mathSymbol, .currencySymbol, .modifierSymbol, .otherSymbol]
  | "sm" | "mathsymbol" => some [.mathSymbol]
  | "sc" | "currencysymbol" => some [.currencySymbol]
  | "sk" | "modifiersymbol" => some [.modifierSymbol]
  | "so" | "othersymbol" => some [.otherSymbol]
  | "z" | "separator" => some [.spaceSeparator, .lineSeparator, .paragraphSeparator]
  | "zs" | "spaceseparator" => some [.spaceSeparator]
  | "zl" | "lineseparator" => some [.lineSeparator]
  | "zp" | "paragraphseparator" => some [.paragraphSeparator]
  | "c" | "other" => some [.control, .format, .surrogate, .privateUse, .unassigned]
  | "cc" | "control" | "cntrl" => some [.control]
  | "cf" | "format" => some [.format]
  | "co" | "privateuse" => some [.privateUse]
  | "cn" | "unassigned" => some [.unassigned]
  | _ => Option.none

/-- The set of the characters with a property, by the loosely written name of the property. -/
def property? (name : String) : Option CharSet :=
  let plain := String.ofList ((name.toList.filter
    (fun c => c != ' ' && c != '_' && c != '-')).map Char.toLower)
  let plain := match Text.after? ['i', 's'] plain.toList with
    | some rest => if plain = "isc" then plain else String.ofList rest
    | Option.none => plain
  match plain with
  | "any" => some any
  | "ascii" => some (ofRanges [(0x00, 0x7F)])
  | "assigned" => some (compl (categories [.unassigned]))
  | "alphabetic" | "alpha" => some (union letters (categories [.nonspacingMark, .spacingMark]))
  | "whitespace" | "wspace" | "space" => some blanks
  | "cased" => some (union (categories [.uppercaseLetter, .lowercaseLetter, .titlecaseLetter])
      (ofRanges (letterSymbols ++ otherCased)))
  | plain => (categoriesNamed? plain).map categories

/-! ## Cost -/

/-- The number of code point ranges of the set, roughly. -/
def spans : CharSet → Nat
  | range .. => 1
  | categories which =>
    (Category.runs.filter fun run => which.contains run.2).length
  | blanks => 10
  | none => 0
  | union a b => a.spans + b.spans
  | inter a b => max a.spans b.spans
  | diff a b => a.spans + b.spans
  | compl a => a.spans + 1
  | folded a => 2 * a.spans

end CharSet

end Migrations

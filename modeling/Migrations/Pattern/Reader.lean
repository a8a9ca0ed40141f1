import Migrations.Pattern.Basic

/-!
# Except PatternFault (Parsed Patterns)

The written form of patterns: alternatives, groups with flags, repetitions, classes in brackets with
set operations, escapes and assertions.  Patterns can neither look around nor refer back to a group,
and a pattern whose written form is sound is still refused when it would take too much room.
-/

namespace Migrations

inductive PatternFault where
  | unclosedGroup
  | unopenedGroup
  | unclosedClass
  | badClassRange
  | badClassItem
  | nothingToRepeat
  | unclosedCount
  | badCount
  | badEscape
  | badProperty
  | badFlag
  | badGroupName
  | lookAround
  | backReference
  | notText
  | tooLarge
  deriving DecidableEq, Repr

def PatternFault.message : PatternFault → String
  | unclosedGroup => "unclosed group"
  | unopenedGroup => "unopened group"
  | unclosedClass => "unclosed character class"
  | badClassRange => "invalid character class range"
  | badClassItem => "invalid item in character class"
  | nothingToRepeat => "repetition operator missing expression"
  | unclosedCount => "unclosed counted repetition"
  | badCount => "invalid repetition count"
  | badEscape => "unrecognized escape sequence"
  | badProperty => "unknown character property"
  | badFlag => "invalid flags"
  | badGroupName => "invalid group name"
  | lookAround => "look-around is not supported"
  | backReference => "back-references are not supported"
  | notText => "pattern can match what is not text"
  | tooLarge => "pattern exceeds the size limit"

namespace Pattern

open Text

/-! ## Flags -/

/-- How the letters of a pattern are read. -/
structure Flags where
  /-- Case does not matter. -/
  anyCase : Bool := false
  /-- `^` and `$` stand for line ends. -/
  multiLine : Bool := false
  /-- The dot stands for line feeds as well. -/
  dotAll : Bool := false
  /-- Properties and word characters are those of all scripts. -/
  unicode : Bool := true
  /-- Carriage returns end lines as well. -/
  returns : Bool := false
  /-- Blanks and comments are skipped. -/
  spaced : Bool := false

def Flags.set? (flags : Flags) (on : Bool) : Char → Option Flags
  | 'i' => some { flags with anyCase := on }
  | 'm' => some { flags with multiLine := on }
  | 's' => some { flags with dotAll := on }
  | 'U' => some flags
  | 'u' => some { flags with unicode := on }
  | 'R' => some { flags with returns := on }
  | 'x' => some { flags with spaced := on }
  | _ => none

/-- What was read, and the text after it. -/
abbrev Parsed (α : Type) := α × List Char

def skip (flags : Flags) (cs : List Char) : List Char :=
  if !flags.spaced then cs else
  go cs.length cs
where
  /-- Skips one blank or comment at a time. -/
  go : Nat → List Char → List Char
    | 0, cs => cs
    | fuel + 1, cs =>
      match cs with
      | '#' :: rest => go fuel (rest.dropWhile (· != '\n'))
      | c :: rest => if isBlank c then go fuel rest else cs
      | [] => []

/-- The flags that follow a group opener, up to the character that ends them; at least one letter
has been read when the first component is true. -/
def readFlags (flags : Flags) (on : Bool) (seen : List Char) (dangling : Bool) :
    List Char → Except PatternFault (Bool × Flags × Char × List Char)
  | [] => .error .badFlag
  | c :: cs =>
    if c = ':' ∨ c = ')' then
      if dangling then .error .badFlag else .ok (!seen.isEmpty, flags, c, cs)
    else if seen.contains c then .error .badFlag
    else if c = '-' then readFlags flags false (c :: seen) true cs
    else match flags.set? on c with
      | some flags => readFlags flags on (c :: seen) false cs
      | none => .error .badFlag

/-! ## Escapes -/

/-- What a backslash and the characters after it stand for. -/
inductive Escape where
  | literal (c : Char)
  | set (s : CharSet)
  | look (l : Look)

def hexValue? (c : Char) : Option Nat :=
  if c.isDigit then some (c.toNat - '0'.toNat)
  else if 'a' ≤ c ∧ c ≤ 'f' then some (c.toNat - 'a'.toNat + 10)
  else if 'A' ≤ c ∧ c ≤ 'F' then some (c.toNat - 'A'.toNat + 10)
  else none

def hexNumber? (cs : List Char) : Option Nat :=
  cs.foldl (fun n c => do return (← n) * 16 + (← hexValue? c)) (some 0)

def scalar? (n : Nat) : Option Char := if n.isValidChar then some (Char.ofNat n) else none

/-- A character by its number: so many digits, or any number of them in braces. -/
def readHex (digits : Nat) : List Char → Except PatternFault (Parsed Escape)
  | '{' :: cs =>
    let inner := cs.takeWhile (· != '}')
    match cs.dropWhile (· != '}') with
    | _ :: rest =>
      if inner.isEmpty then .error .badEscape
      else match (hexNumber? inner).bind scalar? with
        | some c => .ok (.literal c, rest)
        | none => .error .badEscape
    | [] => .error .badEscape
  | cs =>
    if cs.length < digits then .error .badEscape
    else match (hexNumber? (cs.take digits)).bind scalar? with
      | some c => .ok (.literal c, cs.drop digits)
      | none => .error .badEscape

/-- A set as the flags want it: its case variants belong to it when case does not matter, and then
its complement is taken when it is negated. -/
def finish (flags : Flags) (negated : Bool) (set : CharSet) : CharSet :=
  let set := if flags.anyCase then CharSet.folded set else set
  if negated then CharSet.compl set else set

/-- The set of a property by the text in braces. -/
def propertySet? (text : String) : Option CharSet :=
  match breakOn ['!', '='] text.toList with
  | some (key, value) => (keyed key value).map CharSet.compl
  | none =>
    match breakOn [':'] text.toList with
    | some (key, value) => keyed key value
    | none =>
      match breakOn ['='] text.toList with
      | some (key, value) => keyed key value
      | none => CharSet.property? text
where
  /-- The set of the characters whose property has the value. -/
  keyed (key value : List Char) : Option CharSet :=
    let key := (key.filter Char.isAlpha).map Char.toLower
    if key = "gc".toList ∨ key = "generalcategory".toList then
      CharSet.property? (String.ofList value)
    else none

/-- A property after `p` or `P`. -/
def readProperty (flags : Flags) (negated : Bool) (cs : List Char) :
    Except PatternFault (Parsed Escape) := do
  let (name, rest) ← match cs with
    | [] => .error .badEscape
    | '{' :: cs =>
      match cs.dropWhile (· != '}') with
      | _ :: rest => .ok (cs.takeWhile (· != '}'), rest)
      | [] => .error .badEscape
    | '\\' :: _ => .error .badProperty
    | c :: rest => .ok ([c], rest)
  if !flags.unicode then .error .badProperty
  else match propertySet? (String.ofList name) with
    | some set => .ok (.set (finish flags negated set), rest)
    | none => .error .badProperty

/-- A set named by one letter; the capital letter names its complement. -/
def letterSet (flags : Flags) : Char → Option CharSet
  | 'd' => some (if flags.unicode then CharSet.digits else CharSet.asciiDigits)
  | 's' => some (if flags.unicode then CharSet.blanks else CharSet.asciiBlanks)
  | 'w' => some (if flags.unicode then CharSet.wordChars else CharSet.asciiWordChars)
  | _ => none

/-- A word boundary after `b`, with its kind in braces; without one of those words, the brace is
left for a repetition. -/
def readBoundary (cs : List Char) : Except PatternFault (Parsed Escape) :=
  match cs with
  | '{' :: inner =>
    let isNamed := match inner with
      | c :: _ => c.isAlpha || c == '-'
      | [] => false
    if inner.isEmpty then .error .badEscape
    else if !isNamed then .ok (.look .wordBoundary, cs)
    else
      let name := String.ofList (inner.takeWhile (fun c => c.isAlpha || c == '-'))
      match inner.dropWhile (fun c => c.isAlpha || c == '-'), name with
      | '}' :: rest, "start" => .ok (.look .wordStart, rest)
      | '}' :: rest, "end" => .ok (.look .wordEnd, rest)
      | '}' :: rest, "start-half" => .ok (.look .wordStartHalf, rest)
      | '}' :: rest, "end-half" => .ok (.look .wordEndHalf, rest)
      | _, _ => .error .badEscape
  | _ => .ok (.look .wordBoundary, cs)

/-- What follows a backslash. -/
def readEscape (flags : Flags) : List Char → Except PatternFault (Parsed Escape)
  | [] => .error .badEscape
  | c :: cs =>
    if c.isDigit then .error .backReference
    else if c = 'x' then readHex 2 cs
    else if c = 'u' then readHex 4 cs
    else if c = 'U' then readHex 8 cs
    else if c = 'p' ∨ c = 'P' then readProperty flags (c = 'P') cs
    else match letterSet flags c.toLower with
      | some set =>
        if c.isLower then .ok (.set set, cs)
        else if flags.unicode then .ok (.set (CharSet.compl set), cs)
        else .error .notText
      | none =>
        match c with
        | 'a' => .ok (.literal '\x07', cs)
        | 'f' => .ok (.literal '\x0C', cs)
        | 't' => .ok (.literal '\t', cs)
        | 'n' => .ok (.literal '\n', cs)
        | 'r' => .ok (.literal '\r', cs)
        | 'v' => .ok (.literal '\x0B', cs)
        | 'A' => .ok (.look .textStart, cs)
        | 'z' => .ok (.look .textEnd, cs)
        | 'b' => readBoundary cs
        | 'B' => .ok (.look .noWordBoundary, cs)
        | '<' => .ok (.look .wordStart, cs)
        | '>' => .ok (.look .wordEnd, cs)
        | c =>
          if c.toNat < 128 && !c.isAlphanum then .ok (.literal c, cs) else .error .badEscape

/-! ## Classes -/

/-- The set operations between the parts of a class. -/
inductive SetOp where
  | inter
  | diff
  | symmDiff

/-- The set that an operation makes of two sets. -/
def SetOp.apply : SetOp → CharSet → CharSet → CharSet
  | inter => CharSet.inter
  | diff => CharSet.diff
  | symmDiff => CharSet.symmDiff

/-- One character or escape inside a class. -/
def readClassItem (flags : Flags) : List Char → Except PatternFault (Parsed Escape)
  | [] => .error .unclosedClass
  | '\\' :: cs => readEscape flags cs
  | c :: cs => .ok (.literal c, cs)

/-- One item of a class: a set, a character, or a range of characters. -/
def readClassRange (flags : Flags) (cs : List Char) : Except PatternFault (Parsed CharSet) := do
  let (first, rest) ← readClassItem flags cs
  let rest := skip flags rest
  let alone : Except PatternFault (Parsed CharSet) :=
    match first with
    | .literal c => .ok (CharSet.char c, rest)
    | .set set => .ok (set, rest)
    | .look _ => .error .badClassItem
  match rest with
  | [] => .error .unclosedClass
  | '-' :: more =>
    match skip flags more with
    | ']' :: _ => alone
    | '-' :: _ => alone
    | more =>
      let (last, rest) ← readClassItem flags more
      match first, last with
      | .literal a, .literal b =>
        if a ≤ b then .ok (CharSet.range a b, rest) else .error .badClassRange
      | _, _ => .error .badClassItem
  | _ => alone

/-- A class of ASCII characters by name, such as `[:alpha:]`, after its opening bracket. -/
def asciiClass? (flags : Flags) (cs : List Char) : Option (CharSet × List Char) := do
  let rest ← after? [':'] cs
  let negated := rest.head? == some '^'
  let rest := if negated then rest.drop 1 else rest
  let name := rest.takeWhile (fun c => c != ':')
  let rest ← after? [':', ']'] (rest.drop name.length)
  let set ← CharSet.asciiClass? (String.ofList name)
  some (finish flags negated set, rest)

/-- What opens a class: whether it is negated, and the leading hyphens and the leading bracket that
stand for themselves. -/
def readClassOpening (flags : Flags) (cs : List Char) : Bool × CharSet × List Char :=
  let cs := skip flags cs
  let negated := cs.head? == some '^'
  let cs := if negated then skip flags (cs.drop 1) else cs
  let hyphens := hyphenRun cs.length cs
  if hyphens.length < cs.length then (negated, CharSet.char '-', hyphens)
  else match cs with
    | ']' :: rest => (negated, CharSet.char ']', rest)
    | cs => (negated, CharSet.none, cs)
where
  /-- The text after the hyphens that it starts with. -/
  hyphenRun : Nat → List Char → List Char
    | 0, cs => cs
    | fuel + 1, cs =>
      match cs with
      | '-' :: rest => hyphenRun fuel (skip flags rest)
      | cs => cs

/-- The items of a class up to its closing bracket.  `left` is what stands before the last set
operation and that operation, `here` what has been read since. -/
def readClassItems (flags : Flags) (fuel : Nat) (left : Option (CharSet × SetOp))
    (here : CharSet) (cs : List Char) : Except PatternFault (Parsed CharSet) :=
  match fuel with
  | 0 => .error .unclosedClass
  | fuel + 1 =>
    let folded (set : CharSet) := if flags.anyCase then CharSet.folded set else set
    let closed := match left with
      | none => here
      | some (set, op) => op.apply (folded set) (folded here)
    match skip flags cs with
    | [] => .error .unclosedClass
    | '[' :: rest =>
      match asciiClass? flags rest with
      | some (set, rest) => readClassItems flags fuel left (CharSet.union here set) rest
      | none =>
        let (negated, start, inner) := readClassOpening flags rest
        match readClassItems flags fuel none start inner with
        | .ok (set, rest) =>
          readClassItems flags fuel left (CharSet.union here (finish flags negated set)) rest
        | .error fault => .error fault
    | ']' :: rest => .ok (closed, rest)
    | '&' :: '&' :: rest => readClassItems flags fuel (some (closed, .inter)) CharSet.none rest
    | '-' :: '-' :: rest => readClassItems flags fuel (some (closed, .diff)) CharSet.none rest
    | '~' :: '~' :: rest =>
      readClassItems flags fuel (some (closed, .symmDiff)) CharSet.none rest
    | cs =>
      match readClassRange flags cs with
      | .ok (set, rest) => readClassItems flags fuel left (CharSet.union here set) rest
      | .error fault => .error fault

def readClass (flags : Flags) (cs : List Char) : Except PatternFault (Parsed CharSet) := do
  let (negated, start, inner) := readClassOpening flags cs
  let (set, rest) ← readClassItems flags (cs.length + 1) none start inner
  if negated && !flags.unicode then .error .notText
  else .ok (finish flags negated set, rest)

/-! ## Repetitions -/

/-- A count in decimal, with blanks around it; nothing when there is no digit. -/
def readCount (flags : Flags) (cs : List Char) : Except PatternFault (Option Nat × List Char) :=
  let cs := cs.dropWhile isBlank
  let digits := cs.takeWhile Char.isDigit
  let rest := skip flags ((cs.dropWhile Char.isDigit).dropWhile isBlank)
  if digits.isEmpty then .ok (none, rest)
  else
    let n := Nat.ofDigitChars 10 digits 0
    if n ≤ 0xFFFFFFFF then .ok (some n, rest) else .error .badCount

/-- The bounds of a counted repetition, after its opening brace. -/
def readBounds (flags : Flags) (cs : List Char) :
    Except PatternFault (Parsed (Nat × Option Nat)) := do
  let cs := skip flags cs
  if cs.isEmpty then .error .unclosedCount
  else
    let (least, rest) ← readCount flags cs
    match rest with
    | [] => .error .unclosedCount
    | ',' :: rest =>
      let rest := skip flags rest
      match rest with
      | [] => .error .unclosedCount
      | '}' :: rest =>
        match least with
        | some least => .ok ((least, none), rest)
        | none => .error .badCount
      | rest =>
        let (most, rest) ← readCount flags rest
        match least, most, rest with
        | some least, some most, '}' :: rest =>
          if least ≤ most then .ok ((least, some most), rest) else .error .badCount
        | some _, some _, _ => .error .unclosedCount
        | _, _, _ => .error .badCount
    | '}' :: rest =>
      match least with
      | some n => .ok ((n, some n), rest)
      | none => .error .badCount
    | _ =>
      match least with
      | some _ => .error .unclosedCount
      | none => .error .badCount

/-- The text after the question mark that makes a repetition prefer few rounds. -/
def dropLazy (cs : List Char) : List Char := (after? ['?'] cs).getD cs

/-! ## Patterns -/

def ofEscape (flags : Flags) : Escape → Pattern
  | .literal c => .one (if flags.anyCase then CharSet.folded (CharSet.char c) else CharSet.char c)
  | .set set => .one set
  | .look condition =>
    .look condition (if flags.unicode then CharSet.wordChars else CharSet.asciiWordChars)

def dot (flags : Flags) : Pattern :=
  if flags.dotAll then .one CharSet.any
  else if flags.returns then .one (CharSet.compl (CharSet.ofRanges [(10, 10), (13, 13)]))
  else .one (CharSet.compl (CharSet.char '\n'))

def anchor (flags : Flags) (start : Bool) : Pattern :=
  let condition : Look :=
    if !flags.multiLine then (if start then .textStart else .textEnd)
    else if flags.returns then (if start then .returnLineStart else .returnLineEnd)
    else (if start then .lineStart else .lineEnd)
  .look condition CharSet.none

/-- What has been read of a group: the finished alternatives, and the items of the current one,
last one first, where nothing stands for an item that cannot be repeated. -/
structure Draft where
  done : Option Pattern := none
  items : List (Option Pattern) := []

def Draft.current (draft : Draft) : Pattern :=
  draft.items.foldl (fun rest item => match item, rest with
    | none, rest => rest
    | some a, .empty => a
    | some a, rest => .seq a rest) .empty

def Draft.close (draft : Draft) : Pattern :=
  match draft.done with
  | none => draft.current
  | some done => .alt done draft.current

def Draft.add (draft : Draft) (item : Option Pattern) : Draft :=
  { draft with items := item :: draft.items }

def Draft.next (draft : Draft) : Draft := ⟨some draft.close, []⟩

def Draft.repeated (draft : Draft) (least : Nat) (most : Option Nat) :
    Except PatternFault Draft :=
  match draft.items with
  | some a :: rest => .ok { draft with items := some (.repeated a least most) :: rest }
  | _ => .error .nothingToRepeat

def isNameChar (first : Bool) (c : Char) : Bool :=
  c == '_' || CharSet.letters.has c ||
    (!first && (c == '.' || c == '[' || c == ']' ||
      (CharSet.categories [.decimalNumber, .letterNumber, .otherNumber]).has c))

/-- The name of a group, up to the closing angle. -/
def readName (names : List (List Char)) (cs : List Char) :
    Except PatternFault (List Char × List Char) :=
  let name := cs.takeWhile (· != '>')
  match name, cs.dropWhile (· != '>') with
  | first :: others, _ :: rest =>
    if isNameChar true first && others.all (isNameChar false) && !names.contains name then
      .ok (name, rest)
    else .error .badGroupName
  | _, _ => .error .badGroupName

/-- What follows the opening parenthesis of a group, its letters and blanks aside. -/
inductive GroupHead where
  /-- A group of its own, with its flags and the names of the groups so far. -/
  | group (flags : Flags) (names : List (List Char))
  /-- Flags for the rest of the group at hand. -/
  | flags (flags : Flags)

/-- Reads what follows an opening parenthesis. -/
def readGroupHead (flags : Flags) (names : List (List Char)) (cs : List Char) :
    Except PatternFault (Parsed GroupHead) :=
  let cs := skip flags cs
  if [['?', '='], ['?', '!'], ['?', '<', '='], ['?', '<', '!']].any (·.isPrefixOf cs) then
    .error .lookAround
  else
    match (after? ['?', 'P', '<'] cs).or (after? ['?', '<'] cs) with
    | some rest =>
      match readName names rest with
      | .ok (name, rest) => .ok (.group flags (name :: names), rest)
      | .error fault => .error fault
    | none =>
      match after? ['?'] cs with
      | none => .ok (.group flags names, cs)
      | some rest =>
        match readFlags flags true [] false rest with
        | .error fault => .error fault
        | .ok (_, flags, ':', rest) => .ok (.group flags names, rest)
        | .ok (given, flags, _, rest) =>
          if given then .ok (.flags flags, rest) else .error .nothingToRepeat

/-- Reads a group up to its closing parenthesis, or the whole pattern up to its end, and gives the
names of the groups met so far along with it. -/
def readGroup (inner : Bool) (fuel : Nat) (flags : Flags) (names : List (List Char))
    (draft : Draft) (cs : List Char) :
    Except PatternFault (Parsed (Pattern × List (List Char))) :=
  match fuel with
  | 0 => .error .tooLarge
  | fuel + 1 =>
    let goOn (draft : Draft) (rest : List Char) := readGroup inner fuel flags names draft rest
    let repeated (least : Nat) (most : Option Nat) (rest : List Char) :=
      match draft.repeated least most with
      | .ok draft => goOn draft (dropLazy rest)
      | .error fault => .error fault
    match skip flags cs with
    | [] => if inner then .error .unclosedGroup else .ok ((draft.close, names), [])
    | ')' :: rest =>
      if inner then .ok ((draft.close, names), rest) else .error .unopenedGroup
    | '|' :: rest => goOn draft.next rest
    | '(' :: rest =>
      match readGroupHead flags names rest with
      | .error fault => .error fault
      | .ok (.flags changed, rest) => readGroup inner fuel changed names (draft.add none) rest
      | .ok (.group within names, rest) =>
        match readGroup true fuel within names {} rest with
        | .error fault => .error fault
        | .ok ((a, names), rest) => readGroup inner fuel flags names (draft.add (some a)) rest
    | '[' :: rest =>
      match readClass flags rest with
      | .ok (set, rest) => goOn (draft.add (some (.one set))) rest
      | .error fault => .error fault
    | '*' :: rest => repeated 0 none rest
    | '+' :: rest => repeated 1 none rest
    | '?' :: rest => repeated 0 (some 1) rest
    | '{' :: rest =>
      match readBounds flags rest with
      | .ok ((least, most), rest) => repeated least most (skip flags rest)
      | .error fault => .error fault
    | '\\' :: rest =>
      match readEscape flags rest with
      | .ok (escape, rest) => goOn (draft.add (some (ofEscape flags escape))) rest
      | .error fault => .error fault
    | '.' :: rest =>
      if flags.unicode then goOn (draft.add (some (dot flags))) rest else .error .notText
    | '^' :: rest => goOn (draft.add (some (anchor flags true))) rest
    | '$' :: rest => goOn (draft.add (some (anchor flags false))) rest
    | c :: rest => goOn (draft.add (some (ofEscape flags (.literal c)))) rest

/-- The pattern that a text denotes, with or without regard to case. -/
def ofText (anyCase : Bool) (text : String) : Except PatternFault Pattern :=
  let cs := text.toList
  let flags : Flags := if anyCase then { anyCase := true } else {}
  match readGroup false (cs.length + 1) flags [] {} cs with
  | .error fault => .error fault
  | .ok ((pattern, _), _) =>
    if pattern.cost ≤ greatestCost then .ok pattern else .error .tooLarge

end Pattern

end Migrations

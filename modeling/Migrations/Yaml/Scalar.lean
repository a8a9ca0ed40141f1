import Migrations.Text.Blank
import Migrations.Yaml.Node

/-!
# Written Scalars

How the scalars of a YAML text are read: plain ones, quoted ones in either kind of quotes, and block
scalars, literal or folded.  Line breaks inside plain, quoted and folded scalars are folded: a
single one becomes a space, and of several all but the first are kept.
-/

namespace Migrations.Yaml

/-! ## Characters -/

def isGap (c : Char) : Bool := c == ' ' || c == '\t'

/-- Whether a blank, a line break or the end of the text comes next. -/
def atGap : List Char → Bool
  | [] => true
  | c :: _ => isGap c || c == '\n'

/-- Whether a character opens, closes or divides a flow collection. -/
def isFlowMark (c : Char) : Bool := ",[]\x7b\x7d".toList.contains c

/-- Whether a marker of a document's start or end comes next, at the start of a line. -/
def atMarker (cs : List Char) : Bool :=
  match cs with
  | '-' :: '-' :: '-' :: rest => atGap rest
  | '.' :: '.' :: '.' :: rest => atGap rest
  | _ => false

/-- What stands for line breaks in folded text: a space for one, and the others for several. -/
def foldBreaks (breaks : Nat) : List Char :=
  if breaks = 1 then [' '] else List.replicate (breaks - 1) '\n'

/-- The blanks at the start of the lines that follow: how many line breaks there are, the column
of the next character, whether a tab stands before that column reaches `least`, and the text from
there on. -/
def skipLines (least breaks column : Nat) (tab : Bool) :
    List Char → Nat × Nat × Bool × List Char
  | '\n' :: cs => skipLines least (breaks + 1) 0 tab cs
  | ' ' :: cs => skipLines least breaks (column + 1) tab cs
  | '\t' :: cs => skipLines least breaks (column + 1) (tab || column < least) cs
  | cs => (breaks, column, tab, cs)

/-! ## Plain scalars -/

/-- The part of a plain scalar that stands on one line, with its trailing blanks, and the text after
it. -/
def plainLine (flow afterGap : Bool) : List Char → List Char × List Char
  | [] => ([], [])
  | c :: cs =>
    if c = '\n' || (c = '#' && afterGap) || (c = ':' && atGap cs) ||
        (flow && (isFlowMark c || (c = ':' && (cs.head?.map isFlowMark).getD false))) then
      ([], c :: cs)
    else
      let (chunk, rest) := plainLine flow (isGap c) cs
      (c :: chunk, rest)

/-- A plain scalar and the text after it.  Its further lines are indented by at least `least`
columns, except inside flow collections. -/
def plain (fuel least : Nat) (flow : Bool) (cs : List Char) :
    Except Fault (List Char × List Char) :=
  match fuel with
  | 0 => .error .unclosed
  | fuel + 1 =>
    let (chunk, rest) := plainLine flow false cs
    let chunk := Text.trimRight isGap chunk
    match rest with
    | '\n' :: _ =>
      let (breaks, column, tab, next) := skipLines (if flow then 0 else least) 0 0 false rest
      if tab then .error .tab
      else
        let stops := next.isEmpty || (!flow && column < least) || next.head? == some '#' ||
          (column == 0 && atMarker next) ||
          (next.head? == some ':' && atGap (next.drop 1)) ||
          (flow && (next.head?.map isFlowMark).getD false)
        if stops then .ok (chunk, rest)
        else match plain fuel least flow next with
          | .ok (more, rest) => .ok (chunk ++ foldBreaks breaks ++ more, rest)
          | .error fault => .error fault
    | rest => .ok (chunk, rest)

/-! ## Quoted scalars -/

/-- The value of a hexadecimal number of exactly so many digits, as a character. -/
def hexChar? (digits : Nat) (cs : List Char) : Option Char :=
  if cs.length < digits then none
  else match Node.digits? 16 (cs.take digits) with
    | some n => if n.toNat.isValidChar then some (Char.ofNat n.toNat) else none
    | none => none

/-- The character of a one-letter escape. -/
def escaped? : Char → Option Char
  | '0' => some '\x00'
  | 'a' => some '\x07'
  | 'b' => some '\x08'
  | 't' => some '\t'
  | '\t' => some '\t'
  | 'n' => some '\n'
  | 'v' => some '\x0B'
  | 'f' => some '\x0C'
  | 'r' => some '\r'
  | 'e' => some '\x1B'
  | ' ' => some ' '
  | '"' => some '"'
  | '/' => some '/'
  | '\\' => some '\\'
  | 'N' => some '\u0085'
  | '_' => some '\u00A0'
  | 'L' => some '\u2028'
  | 'P' => some '\u2029'
  | _ => none

def quoted (fuel : Nat) (double : Bool) (cs : List Char) :
    Except Fault (List Char × List Char) :=
  match fuel with
  | 0 => .error .unclosed
  | fuel + 1 =>
    let push (chars : List Char) (rest : List Char) : Except Fault (List Char × List Char) :=
      match quoted fuel double rest with
      | .ok (more, rest) => .ok (chars ++ more, rest)
      | .error fault => .error fault
    match cs with
    | [] => .error .unclosed
    | '\'' :: '\'' :: rest => if double then push ['\''] ('\'' :: rest) else push ['\''] rest
    | '\'' :: rest => if double then push ['\''] rest else .ok ([], rest)
    | '"' :: rest => if double then .ok ([], rest) else push ['"'] rest
    | '\\' :: rest =>
      if !double then push ['\\'] rest
      else match rest with
        | '\n' :: rest =>
          let (breaks, column, _, next) := skipLines 0 0 0 false rest
          if column == 0 && atMarker next then .error .unclosed
          else push (List.replicate breaks '\n') next
        | 'x' :: rest => escapedChar push 2 rest
        | 'u' :: rest => escapedChar push 4 rest
        | 'U' :: rest => escapedChar push 8 rest
        | c :: rest =>
          match escaped? c with
          | some c => push [c] rest
          | none => .error .badEscape
        | [] => .error .unclosed
    | c :: rest =>
      if isGap c || c == '\n' then
        let gap := cs.takeWhile isGap
        match cs.dropWhile isGap with
        | '\n' :: after =>
          let (breaks, column, _, next) := skipLines 0 1 0 false after
          if column == 0 && atMarker next then .error .unclosed
          else push (foldBreaks breaks) next
        | next => push gap next
      else push [c] rest
where
  escapedChar (push : List Char → List Char → Except Fault (List Char × List Char))
      (digits : Nat) (rest : List Char) : Except Fault (List Char × List Char) :=
    match hexChar? digits rest with
    | some c => push [c] (rest.drop digits)
    | none => .error .badEscape

/-! ## Block scalars -/

/-- What is kept of the line breaks at the end of a block scalar. -/
inductive Chomping where
  | strip
  | clip
  | keep
  deriving DecidableEq

/-- The indicators after `|` or `>`: what to keep at the end, and how far the text is indented. -/
def blockHeader (cs : List Char) : Except Fault (Chomping × Option Nat × List Char) :=
  let sign? : Char → Option Chomping
    | '+' => some .keep
    | '-' => some .strip
    | _ => none
  let digit? (c : Char) : Option Nat :=
    if '1' ≤ c ∧ c ≤ '9' then some (c.toNat - '0'.toNat) else none
  let (chomping, indent, rest) : Option Chomping × Option Nat × List Char :=
    match cs with
    | a :: b :: rest =>
      match sign? a, digit? a, sign? b, digit? b with
      | some s, _, _, some n => (some s, some n, rest)
      | _, some n, some s, _ => (some s, some n, rest)
      | some s, _, _, _ => (some s, none, b :: rest)
      | _, some n, _, _ => (none, some n, b :: rest)
      | _, _, _, _ => (none, none, cs)
    | [a] =>
      match sign? a, digit? a with
      | some s, _ => (some s, none, [])
      | _, some n => (none, some n, [])
      | _, _ => (none, none, cs)
    | [] => (none, none, [])
  let rest := rest.dropWhile isGap
  let rest := if rest.head? == some '#' then rest.dropWhile (· != '\n') else rest
  match rest with
  | [] => .ok (chomping.getD .clip, indent, [])
  | '\n' :: rest => .ok (chomping.getD .clip, indent, rest)
  | c :: _ => .error (.unexpected c)

/-- The empty lines before the next line of a block scalar: how many there are, and the text from
the next line's first character within the indentation on, with the columns left to skip. -/
def blockBreaks (fuel indent : Nat) (cs : List Char) : Nat × Nat × List Char :=
  match fuel with
  | 0 => (0, 0, cs)
  | fuel + 1 =>
    let column := (cs.takeWhile (· == ' ')).length
    let column := min column indent
    match cs.drop column with
    | '\n' :: rest =>
      let (breaks, column, rest) := blockBreaks fuel indent rest
      (breaks + 1, column, rest)
    | rest => (0, column, rest)

/-- The indentation of a block scalar that does not say it: that of its first line with text, or of
a longer blank line before it, and at least `least` and one.  No tab may stand before it. -/
def blockIndent (least : Nat) (cs : List Char) : Except Fault Nat :=
  go cs.length 0 cs
where
  /-- The greatest indentation up to the first line with text. -/
  go : Nat → Nat → List Char → Except Fault Nat
    | 0, widest, _ => .ok (max widest (max least 1))
    | fuel + 1, widest, cs =>
      let column := (cs.takeWhile (· == ' ')).length
      match cs.drop column with
      | '\n' :: rest => go fuel (max widest column) rest
      | '\t' :: _ => .error .tab
      | _ => .ok (max (max widest column) (max least 1))

/-- The lines of a block scalar, the column of the text after it, and that text.  `breaks` are the
line breaks since the text before, `led` says whether the line before starts with a blank, and
`first` whether there is no such line. -/
def blockLines (fuel indent : Nat) (folded : Bool) (chomping : Chomping)
    (first led : Bool) (breaks column : Nat) (cs : List Char) : List Char × Nat × List Char :=
  match fuel with
  | 0 => ([], column, cs)
  | fuel + 1 =>
    let atEnd := cs.isEmpty || column < indent
    if atEnd then
      let kept := match chomping with
        | .strip => 0
        | .clip => if first then 0 else min breaks 1
        | .keep => breaks
      (List.replicate kept '\n', column, cs)
    else
      let leads := (cs.head?.map isGap).getD false
      let between :=
        if first then List.replicate breaks '\n'
        else if folded && !led && !leads then foldBreaks breaks
        else List.replicate breaks '\n'
      let line := cs.takeWhile (· != '\n')
      match cs.dropWhile (· != '\n') with
      | '\n' :: rest =>
        let (more, column, rest) := blockBreaks rest.length.succ indent rest
        let (text, after) :=
          blockLines fuel indent folded chomping false leads (more + 1) column rest
        (between ++ line ++ text, after)
      | rest => (between ++ line, 0, rest)

/-- A block scalar after its opening mark, the column of the text after it, and that text. -/
def block (least : Nat) (folded : Bool) (cs : List Char) :
    Except Fault (List Char × Nat × List Char) :=
  match blockHeader cs with
  | .error fault => .error fault
  | .ok (chomping, indent?, rest) =>
    let indent? : Except Fault Nat := match indent? with
      | some n => .ok (if least = 0 then n else least - 1 + n)
      | none => blockIndent least rest
    match indent? with
    | .error fault => .error fault
    | .ok indent =>
      let (breaks, column, body) := blockBreaks rest.length.succ indent rest
      .ok (blockLines (rest.length + 1) indent folded chomping true false breaks column body)

end Migrations.Yaml

import Migrations.Shell.Command
import Migrations.Text.Numeral

/-!
# Shell Tokens

How the text of a shell program is cut into words, operators and line ends.
-/

namespace Migrations.Shell

/-- A token of a shell program. -/
inductive Token where
  | word (line : Nat) (word : Word)
  | operator (line : Nat) (text : String)
  | redirect (stream : Nat) (text : String)
  | lineEnd
  deriving DecidableEq, Repr

namespace Token

/-- The quotes around a place in the text. -/
inductive Quote where
  | none
  | single
  | double
  deriving DecidableEq

def isGap (c : Char) : Bool := c == ' ' || c == '\t'

/-- Whether a character can start a name. -/
def isNameStart (c : Char) : Bool := c.isAlpha || c == '_'

def isNameChar (c : Char) : Bool := c.isAlphanum || c == '_'

/-- The operators, longer ones before their beginnings. -/
def operators : List String := ["&&", "||", ";;", "|", ";", "&", "(", ")"]

/-- The redirection operators, longer ones before their beginnings. -/
def redirections : List String := [">>", ">&", "<&", ">", "<"]

/-- The first of the texts that the characters start with, and what follows it. -/
def startsWith? (texts : List String) (cs : List Char) : Option (String × List Char) :=
  (texts.find? (fun text => text.toList.isPrefixOf cs)).map fun text =>
    (text, cs.drop text.length)

/-! ## Expansions -/

/-- The text up to the mark that closes the one before it, and what follows it.  Marks in quotes and
after backslashes do not count. -/
def enclosed (opening closing : Char) (depth : Nat) (quote : Quote) :
    List Char → Option (List Char × List Char)
  | [] => none
  | [c] => if quote = .none ∧ c = closing ∧ depth = 0 then some ([], []) else none
  | c :: d :: cs =>
    let more (depth : Nat) (quote : Quote) : Option (List Char × List Char) :=
      (enclosed opening closing depth quote (d :: cs)).map fun (text, rest) => (c :: text, rest)
    if c = '\\' ∧ quote ≠ .single then
      (enclosed opening closing depth quote cs).map fun (text, rest) => (c :: d :: text, rest)
    else if c = '\'' ∧ quote ≠ .double then
      more depth (if quote = .single then .none else .single)
    else if c = '"' ∧ quote ≠ .single then
      more depth (if quote = .double then .none else .double)
    else if quote ≠ .none then more depth quote
    else if c = closing then
      if depth = 0 then some ([], d :: cs) else more (depth - 1) quote
    else if c = opening then more (depth + 1) quote
    else more depth quote

/-- The name of a parameter, and what follows it. -/
def name? : List Char → Option (String × List Char)
  | c :: cs =>
    if isNameStart c then
      some (String.ofList (c :: cs.takeWhile isNameChar), cs.dropWhile isNameChar)
    else if c.isDigit || ['#', '@', '*', '?', '$', '!', '-'].contains c then
      some (String.singleton c, cs)
    else none
  | [] => none

/-- What the text after a parameter's name asks for. -/
def form? : List Char → Option Form
  | [] => some .value
  | ':' :: '-' :: text => some (.fallback true text)
  | '-' :: text => some (.fallback false text)
  | ':' :: '=' :: text => some (.initial true text)
  | '=' :: text => some (.initial false text)
  | ':' :: '+' :: text => some (.instead true text)
  | '+' :: text => some (.instead false text)
  | ':' :: '?' :: text => some (.demanded true text)
  | '?' :: text => some (.demanded false text)
  | '%' :: '%' :: text => some (.trimmed true true text)
  | '%' :: text => some (.trimmed true false text)
  | '#' :: '#' :: text => some (.trimmed false true text)
  | '#' :: text => some (.trimmed false false text)
  | _ => none

/-- The parameter in braces, and what is made of its value. -/
def braced? : List Char → Option (String × Form)
  | '#' :: c :: cs =>
    match name? (c :: cs) with
    | some (name, []) => some (name, .length)
    | _ => (form? (c :: cs)).map fun form => ("#", form)
  | cs => do
    let (first, rest) ← name? cs
    let digits := if first.toNat?.isSome then rest.takeWhile Char.isDigit else []
    return (first ++ String.ofList digits, ← form? (rest.drop digits.length))

/-- What a dollar sign stands for with the text after it, and what follows that. -/
def expansion? (inQuotes : Bool) : List Char → Option (Piece × List Char)
  | '(' :: cs =>
    (enclosed '(' ')' 0 .none cs).map fun (program, rest) => (.output program inQuotes, rest)
  | '\x7b' :: cs => do
    let (text, rest) ← enclosed '\x7b' '\x7d' 0 .none cs
    let (name, form) ← braced? text
    return (.parameter name form inQuotes, rest)
  | cs => (name? cs).map fun (name, rest) => (.parameter name .value inQuotes, rest)

/-- The program between backquotes, and what follows it. -/
def backquoted? : List Char → Option (List Char × List Char)
  | [] => none
  | '\x60' :: cs => some ([], cs)
  | '\\' :: c :: cs =>
    (backquoted? cs).map fun (text, rest) =>
      (if ['$', '\\', '\x60'].contains c then c :: text else '\\' :: c :: text, rest)
  | c :: cs => (backquoted? cs).map fun (text, rest) => (c :: text, rest)

/-- The piece that a dollar sign or a backquote starts, with the line after it and the rest. -/
def inserted? (line : Nat) (inQuotes : Bool) (c : Char) (cs : List Char) :
    Option (Piece × Nat × List Char) := do
  let (piece, rest) ←
    if c = '$' then expansion? inQuotes cs
    else if c = '\x60' then
      (backquoted? cs).map fun (program, rest) => (.output program inQuotes, rest)
    else none
  return (piece, line + (cs.take (cs.length - rest.length)).count '\n', rest)

/-! ## Tokens -/

def flush (line : Nat) : Option Word → List Token
  | some w => [.word line w]
  | none => []

/-- The stream that the word before a redirection names, and the tokens before it. -/
def streamOf (line : Nat) (text : String) (read : Option Word) : List Token :=
  let usual := if text.startsWith "<" then 0 else 1
  match read with
  | some [.plain c] =>
    if c.isDigit then [.redirect (c.toNat - 48) text] else flush line read ++ [.redirect usual text]
  | _ => flush line read ++ [.redirect usual text]

def extend (word : Option Word) (pieces : Word) : Option Word := some (word.getD [] ++ pieces)

/-- The tokens of a text, with the quotes around its start and the word that is being read; nothing
if a quote is not closed.  The fuel bounds the length of the text. -/
def scan : Nat → Nat → Quote → Option Word → List Char → Option (List Token)
  | 0, _, _, _, _ => none
  | _ + 1, line, .none, w, [] => some (flush line w)
  | _ + 1, _, _, _, [] => none
  | fuel + 1, line, .single, w, c :: cs =>
    if c = '\'' then scan fuel line .none w cs
    else scan fuel (if c = '\n' then line + 1 else line) .single (extend w [.quoted c]) cs
  | fuel + 1, line, .double, w, c :: cs =>
    if c = '"' then scan fuel line .none w cs
    else if c = '$' ∨ c = '\x60' then
      match inserted? line true c cs with
      | some (piece, line, rest) => scan fuel line .double (extend w [piece]) rest
      | none => scan fuel line .double (extend w [.quoted c]) cs
    else if c = '\\' then
      match cs with
      | '\n' :: rest => scan fuel (line + 1) .double w rest
      | d :: rest =>
        if ['$', '"', '\\', '\x60'].contains d then
          scan fuel line .double (extend w [.quoted d]) rest
        else scan fuel line .double (extend w [.quoted c]) cs
      | [] => none
    else scan fuel (if c = '\n' then line + 1 else line) .double (extend w [.quoted c]) cs
  | fuel + 1, line, .none, w, c :: cs =>
    if isGap c then (scan fuel line .none none cs).map (flush line w ++ ·)
    else if c = '\n' then
      (scan fuel (line + 1) .none none cs).map (flush line w ++ .lineEnd :: ·)
    else if c = '#' ∧ w.isNone then
      scan fuel line .none none (cs.dropWhile (fun c => c != '\n'))
    else if c = '\'' then scan fuel line .single (extend w []) cs
    else if c = '"' then scan fuel line .double (extend w []) cs
    else if c = '$' ∨ c = '\x60' then
      match inserted? line false c cs with
      | some (piece, line, rest) => scan fuel line .none (extend w [piece]) rest
      | none => scan fuel line .none (extend w [.plain c]) cs
    else if c = '\\' then
      match cs with
      | '\n' :: rest => scan fuel (line + 1) .none w rest
      | d :: rest => scan fuel line .none (extend w [.quoted d]) rest
      | [] => scan fuel line .none (extend w [.quoted c]) cs
    else match startsWith? redirections (c :: cs) with
      | some (text, rest) =>
        (scan fuel line .none none rest).map (streamOf line text w ++ ·)
      | none =>
        match startsWith? operators (c :: cs) with
        | some (text, rest) =>
          (scan fuel line .none none rest).map (flush line w ++ .operator line text :: ·)
        | none => scan fuel line .none (extend w [.plain c]) cs

def ofText (cs : List Char) : Option (List Token) := scan (cs.length + 1) 1 .none none cs

/-- The word that a text is inside of quotes; quotes around all of it make no difference. -/
def quotedWord (cs : List Char) : Word :=
  let inner := match cs with
    | '"' :: rest => if rest.getLast? == some '"' then rest.dropLast else cs
    | cs => cs
  match scan (inner.length + 2) 1 .double none (inner ++ ['"']) with
  | some [.word _ pieces] => pieces
  | _ => inner.map .quoted

/-- The word that a text is outside of quotes. -/
def plainWord (cs : List Char) : Word :=
  match ofText cs with
  | some [.word _ pieces] => pieces
  | _ => cs.map .plain

end Token

end Migrations.Shell

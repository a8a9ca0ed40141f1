import Migrations.Shell.Token

/-!
# Reading Shell Programs

How the tokens of a program make up a command.  Every function here takes a list of tokens and gives
the command that it starts with, and the tokens after it.
-/

namespace Migrations.Shell

namespace Command

/-- The text of a word without quotes and parameters. -/
def literal? : Word → Option (List Char)
  | [] => some []
  | .plain c :: rest => (literal? rest).map (c :: ·)
  | _ :: _ => none

/-- Whether the token is the keyword. -/
def isKeyword (text : String) : Token → Bool
  | .word _ word => literal? word == some text.toList
  | _ => false

/-- The tokens after a keyword. -/
def after? (text : String) : List Token → Option (List Token)
  | token :: rest => if isKeyword text token then some rest else none
  | [] => none

/-- The keywords that end a list of commands. -/
def closers : List String := ["then", "elif", "else", "fi", "esac", "do", "done", "\x7d"]

/-- Whether a list of commands ends before the token. -/
def isCloser : Token → Bool
  | .word line word => closers.any (fun text => isKeyword text (.word line word))
  | .operator _ text => text == ";;" || text == ")"
  | _ => false

/-- Whether the token only separates commands. -/
def isSeparator : Token → Bool
  | .lineEnd => true
  | .operator _ text => text == ";"
  | _ => false

def skipLines : List Token → List Token := List.dropWhile (· == .lineEnd)

/-- The name and the value of a word such as `name=value`. -/
def assignment? (word : Word) : Option (String × Word) :=
  let name := word.takeWhile fun piece =>
    match piece with
    | .plain c => Token.isNameChar c
    | _ => false
  match literal? name, word.drop name.length with
  | some (c :: cs), .plain '=' :: value =>
    if Token.isNameStart c then some (String.ofList (c :: cs), value) else none
  | _, _ => none

def redirect? (stream : Nat) (text : String) (word : Word) : Option Redirect :=
  if text = ">" then some (.output stream word)
  else if text = ">>" then some (.append stream word)
  else if text = "<" then some (.input word)
  else match (literal? word).bind Text.numeral? with
    | some source => some (.duplicate stream source)
    | none => none

def addWord (line : Nat) (word : Word) : Command → Command
  | .simple _ assignments words redirects =>
    match words, assignment? word with
    | [], some assignment => .simple line (assignments ++ [assignment]) [] redirects
    | _, _ => .simple line assignments (words ++ [word]) redirects
  | _ =>
    match assignment? word with
    | some assignment => .simple line [assignment] [] []
    | none => .simple line [] [word] []

def addRedirect (redirect : Redirect) : Command → Command
  | .simple line assignments words redirects =>
    .simple line assignments words (redirects ++ [redirect])
  | _ => .simple 1 [] [] [redirect]

/-- The words and redirections of a simple command, added to those before them. -/
def simple? (command : Command) : List Token → Option (Command × List Token)
  | .word line word :: rest => simple? (addWord line word command) rest
  | .redirect stream text :: .word _ word :: rest => do
    simple? (addRedirect (← redirect? stream text word) command) rest
  | .redirect .. :: _ => none
  | tokens => if command = .nothing then none else some (command, tokens)

/-- The redirections that follow a command. -/
def redirects? : List Token → Option (List Redirect × List Token)
  | .redirect stream text :: .word _ word :: rest => do
    let redirect ← redirect? stream text word
    let (redirects, rest) ← redirects? rest
    return (redirect :: redirects, rest)
  | .redirect .. :: _ => none
  | tokens => some ([], tokens)

def withRedirects? (line : Nat) (command : Command) (tokens : List Token) :
    Option (Command × List Token) := do
  let (redirects, rest) ← redirects? tokens
  return (if redirects.isEmpty then command else .redirected line command redirects, rest)

/-- The words up to a separator. -/
def words : List Token → List Word × List Token
  | .word _ word :: rest =>
    let (more, rest) := words rest
    (word :: more, rest)
  | tokens => ([], tokens)

/-- The patterns of one choice, up to the closing parenthesis. -/
def patterns? : List Token → Option (List Word × List Token)
  | .word _ word :: .operator _ ")" :: rest => some ([word], rest)
  | .word _ word :: .operator _ "|" :: rest =>
    (patterns? rest).map fun (words, rest) => (word :: words, rest)
  | _ => none

mutual

/-- A list of commands, up to a token that closes it. -/
def list? : Nat → List Token → Option (Command × List Token)
  | 0, _ => none
  | fuel + 1, tokens =>
    match tokens.dropWhile isSeparator with
    | [] => some (.nothing, [])
    | token :: rest =>
      if isCloser token then some (.nothing, token :: rest)
      else do
        let (first, rest) ← chain? fuel (token :: rest)
        let (second, rest) ← list? fuel rest
        some (.sequence first second, rest)

/-- Commands that depend on one another's success. -/
def chain? : Nat → List Token → Option (Command × List Token)
  | 0, _ => none
  | fuel + 1, tokens => do
    let (first, rest) ← pipe? fuel tokens
    chainAfter? fuel first rest

/-- The commands that depend on the success of one. -/
def chainAfter? : Nat → Command → List Token → Option (Command × List Token)
  | 0, _, _ => none
  | fuel + 1, first, .operator _ "&&" :: rest => do
    let (second, rest) ← pipe? fuel (skipLines rest)
    chainAfter? fuel (.both first second) rest
  | fuel + 1, first, .operator _ "||" :: rest => do
    let (second, rest) ← pipe? fuel (skipLines rest)
    chainAfter? fuel (.either first second) rest
  | _ + 1, first, tokens => some (first, tokens)

/-- Commands with pipes between them. -/
def pipe? : Nat → List Token → Option (Command × List Token)
  | 0, _ => none
  | fuel + 1, tokens => do
    match after? "!" tokens with
    | some rest =>
      let (command, rest) ← pipe? fuel rest
      some (.negated command, rest)
    | none =>
      let (first, rest) ← command? fuel tokens
      match rest with
      | .operator _ "|" :: rest => do
        let (second, rest) ← pipe? fuel (skipLines rest)
        some (.pipe first second, rest)
      | rest => some (first, rest)

def command? : Nat → List Token → Option (Command × List Token)
  | 0, _ => none
  | fuel + 1, tokens =>
    match tokens with
    | .operator line "(" :: rest => do
      let (command, rest) ← list? fuel rest
      match rest with
      | .operator _ ")" :: rest => withRedirects? line (.subshell command) rest
      | _ => none
    | .word line word :: rest =>
      match literal? word with
      | some text => do
        match ← compound? fuel line (String.ofList text) rest with
        | some (command, rest) => withRedirects? line command rest
        | none => simple? .nothing tokens
      | none => simple? .nothing tokens
    | tokens => simple? .nothing tokens

/-- The command that a keyword starts; no command if the word is not a keyword. -/
def compound? : Nat → Nat → String → List Token → Option (Option (Command × List Token))
  | 0, _, _, _ => none
  | fuel + 1, line, keyword, tokens =>
    if keyword = "if" then (branch? fuel tokens).map some
    else if keyword = "\x7b" then do
      let (command, rest) ← list? fuel tokens
      return some (command, ← after? "\x7d" rest)
    else if keyword = "while" ∨ keyword = "until" then do
      let (condition, rest) ← list? fuel tokens
      let (body, rest) ← list? fuel (← after? "do" rest)
      return some (.loop (keyword = "until") condition body, ← after? "done" rest)
    else if keyword = "for" then
      match tokens with
      | .word _ name :: rest => do
        let name ← literal? name
        let (words, rest) := match after? "in" (skipLines rest) with
          | some rest => words rest
          | none => ([[.parameter "@" .value true]], rest)
        let (body, rest) ← list? fuel (← after? "do" (rest.dropWhile isSeparator))
        return some (.each line (String.ofList name) words body, ← after? "done" rest)
      | _ => none
    else if keyword = "case" then
      match tokens with
      | .word _ word :: rest => do
        let rest := skipLines (← after? "in" (skipLines rest))
        (choices? fuel line word rest).map some
      | _ => none
    else some none

/-- A condition after its first keyword. -/
def branch? : Nat → List Token → Option (Command × List Token)
  | 0, _ => none
  | fuel + 1, tokens => do
    let (condition, rest) ← list? fuel tokens
    let (yes, rest) ← list? fuel (← after? "then" rest)
    match after? "elif" rest with
    | some rest =>
      let (no, rest) ← branch? fuel rest
      some (.branch condition yes no, rest)
    | none =>
      match after? "else" rest with
      | some rest =>
        let (no, rest) ← list? fuel rest
        some (.branch condition yes no, ← after? "fi" rest)
      | none => some (.branch condition yes .nothing, ← after? "fi" rest)

/-- The choices for a word. -/
def choices? : Nat → Nat → Word → List Token → Option (Command × List Token)
  | 0, _, _, _ => none
  | fuel + 1, line, word, tokens =>
    match after? "esac" tokens with
    | some rest => some (.nothing, rest)
    | none => do
      let tokens := match tokens with
        | .operator _ "(" :: rest => rest
        | tokens => tokens
      let (patterns, rest) ← patterns? tokens
      let (body, rest) ← list? fuel rest
      let rest := match rest with
        | .operator _ ";;" :: rest => skipLines rest
        | rest => rest
      let (otherwise, rest) ← choices? fuel line word rest
      some (.choose line word patterns body otherwise, rest)

end

def ofText? (cs : List Char) : Option Command := do
  let tokens ← Token.ofText cs
  match ← list? (6 * tokens.length + 6) tokens with
  | (command, []) => some command
  | _ => none

end Command

end Migrations.Shell

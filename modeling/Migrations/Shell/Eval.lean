import Migrations.Shell.Program
import Migrations.Shell.Reader

/-!
# Running Shell Programs

How a command changes the state of the shell.  Nothing happens any more once the program has ended.
-/

namespace Migrations.Shell

namespace Machine

/-! ## Redirections -/

/-- The streams with one of them led elsewhere. -/
def lead (streams : Streams) (stream : Nat) (sink : Sink) : Streams :=
  if stream = 2 then { streams with err := sink } else { streams with out := sink }

/-- The machine after a report that something failed on a line. -/
def complain (machine : Machine) (streams : Streams) (line status : Nat) (reason : String) :
    Machine :=
  let name := machine.name
  (machine.say streams.err s!"{name}: {line}: {reason}\n").finish status

/-- Opens a file for writing, at its end or as a new text. -/
def openSink (machine : Machine) (line : Nat) (streams : Streams) (path : String) (fresh : Bool) :
    Except Machine (Machine × Sink) :=
  if path = "/dev/null" then .ok (machine, .nowhere)
  else
    let before := if fresh then ByteArray.empty
      else (machine.home.read (machine.path path)).toOption.getD .empty
    match machine.home.write (machine.path path) before with
    | .ok home => .ok ({ machine with home := home }, .file (machine.path path))
    | .error (.notFile _) =>
      .error (machine.complain streams line 2 s!"cannot create {path}: Is a directory")
    | .error _ =>
      .error (machine.complain streams line 2 s!"cannot create {path}: Directory nonexistent")

def openInput (machine : Machine) (line : Nat) (streams : Streams) (path : String) :
    Except Machine Machine :=
  if path = "/dev/null" then .ok { machine with input := .empty }
  else match machine.home.read (machine.path path) with
    | .ok bytes => .ok { machine with input := bytes }
    | .error _ => .error (machine.complain streams line 2 s!"cannot open {path}: No such file")

/-- The machine and the streams after redirections; a file that cannot be used ends them with a
report. -/
def redirect (machine : Machine) (line : Nat) (streams : Streams) :
    List Redirect → Except Machine (Machine × Streams)
  | [] => .ok (machine, streams)
  | .duplicate stream source :: rest =>
    let sink := if source = 2 then streams.err else streams.out
    machine.redirect line (lead streams stream sink) rest
  | .input file :: rest => do
    let machine ← machine.openInput line streams (String.ofList (machine.text file))
    machine.redirect line streams rest
  | .output stream file :: rest => do
    let path := String.ofList (machine.text file)
    let (machine, sink) ← machine.openSink line streams path true
    machine.redirect line (lead streams stream sink) rest
  | .append stream file :: rest => do
    let path := String.ofList (machine.text file)
    let (machine, sink) ← machine.openSink line streams path false
    machine.redirect line (lead streams stream sink) rest

/-! ## Commands -/

def assign (machine : Machine) (assignments : List (String × Word)) : Machine :=
  assignments.foldl (fun machine (name, word) =>
    { machine with vars := machine.vars.insert name (String.ofList (machine.text word)) })
    machine

def hasInput (redirects : List Redirect) : Bool :=
  redirects.any fun redirect =>
    match redirect with
    | .input _ => true
    | _ => false

/-- Does something under redirections, after which the input is the one before them. -/
def under (machine : Machine) (streams : Streams) (line : Nat) (redirects : List Redirect)
    (f : Streams → Machine → Machine) : Machine :=
  match machine.redirect line streams redirects with
  | .error machine => machine
  | .ok (redirected, inner) =>
    let after := f inner redirected
    if hasInput redirects then { after with input := machine.input } else after

def runSimple (machine : Machine) (streams : Streams) (line status : Nat)
    (assignments : List (String × Word)) (words : List Word) (redirects : List Redirect) :
    Machine :=
  machine.under streams line redirects fun inner machine =>
    match machine.fields words with
    | [] => (machine.assign assignments).finish status
    | name :: arguments =>
      match (machine.assign assignments).program? inner line name arguments with
      | some after =>
        if lasting.contains name then after
        else
          { after with vars := restore (assignments.map Prod.fst) machine.vars after.vars }
      | none => machine.complain inner line 127 s!"{name}: not found"

/-- The machine after a command that ran in a shell of its own: what it wrote stays, and its ending
is a status. -/
def leave (before after : Machine) : Machine :=
  let after := { after with
    vars := before.vars
    arguments := before.arguments
    dir := before.dir
    strict := before.strict }
  match after.ending with
  | some (.exit status) => { after with ending := none, status := status }
  | _ => after

/-- The machine after a command; in strict mode a failure that nobody asks about ends it. -/
def check (tested : Bool) (machine : Machine) : Machine :=
  if machine.strict && !tested && machine.status != 0 && machine.ending.isNone then
    { machine with ending := some (.exit machine.status) }
  else machine

/-! ## Settling words -/

/-- A word with its pieces settled from left to right. -/
def settleWord (settle : Machine → Piece → Machine × Word) (machine : Machine) (word : Word) :
    Machine × Word :=
  word.foldl (fun (machine, done) piece =>
    let (machine, pieces) := settle machine piece
    (machine, done ++ pieces)) (machine, [])

def settleWords (settle : Machine → Piece → Machine × Word) (machine : Machine) :
    List Word → Machine × List Word
  | [] => (machine, [])
  | word :: rest =>
    let (machine, word) := settleWord settle machine word
    let (machine, rest) := settleWords settle machine rest
    (machine, word :: rest)

/-- Redirections with their words settled. -/
def settleRedirects (settle : Machine → Piece → Machine × Word) (machine : Machine) :
    List Redirect → Machine × List Redirect
  | [] => (machine, [])
  | redirect :: rest =>
    let (machine, redirect) : Machine × Redirect := match redirect with
      | .input file =>
        let (machine, file) := settleWord settle machine file
        (machine, .input file)
      | .output stream file =>
        let (machine, file) := settleWord settle machine file
        (machine, .output stream file)
      | .append stream file =>
        let (machine, file) := settleWord settle machine file
        (machine, .append stream file)
      | redirect => (machine, redirect)
    let (machine, rest) := settleRedirects settle machine rest
    (machine, redirect :: rest)

/-- Whether a word has the output of a program in it. -/
def hasOutput (word : Word) : Bool :=
  word.any fun piece =>
    match piece with
    | .output .. => true
    | _ => false

/-- The value of a parameter, when the form counts it as one. -/
def present? (machine : Machine) (name : String) (orEmpty : Bool) : Option (List Char) :=
  match machine.value? name with
  | some text => if orEmpty && text.isEmpty then none else some text
  | none => none

mutual

/-- What stands for a piece once programs are run and the words of parameters are put in. -/
def settle : Nat → Streams → Nat → Machine → Piece → Machine × Word
  | 0, _, _, machine, _ => (machine, [])
  | fuel + 1, streams, line, machine, piece =>
    let textOf (machine : Machine) (word : Word) : Machine × List Char :=
      let (machine, word) := settleWord (settle fuel streams line) machine word
      (machine, machine.text word)
    match piece with
    | .output program inQuotes =>
      let inner := runProgram fuel { streams with out := .pipe } { machine with piped := .empty }
        program
      let text := Text.trimRight (· == '\n') (Text.decode inner.piped)
      ({ machine.leave inner with piped := machine.piped }, [.inserted text inQuotes])
    | .parameter name (.fallback orEmpty word) inQuotes =>
      match machine.present? name orEmpty with
      | some text => (machine, [.inserted text inQuotes])
      | none =>
        let (machine, text) := textOf machine (Token.quotedWord word)
        (machine, [.inserted text inQuotes])
    | .parameter name (.initial orEmpty word) inQuotes =>
      match machine.present? name orEmpty with
      | some text => (machine, [.inserted text inQuotes])
      | none =>
        let (machine, text) := textOf machine (Token.quotedWord word)
        let vars := machine.vars.insert name (String.ofList text)
        ({ machine with vars := vars }, [.inserted text inQuotes])
    | .parameter name (.instead orEmpty word) inQuotes =>
      match machine.present? name orEmpty with
      | some _ =>
        let (machine, text) := textOf machine (Token.quotedWord word)
        (machine, [.inserted text inQuotes])
      | none => (machine, [.inserted [] inQuotes])
    | .parameter name (.demanded orEmpty word) inQuotes =>
      match machine.present? name orEmpty with
      | some text => (machine, [.inserted text inQuotes])
      | none =>
        let (machine, text) := textOf machine (Token.quotedWord word)
        let usual := if orEmpty then "parameter not set or null" else "parameter not set"
        let reason := if text.isEmpty then usual else String.ofList text
        let machine := machine.complain streams line 2 s!"{name}: {reason}"
        ({ machine with ending := some (.exit 2) }, [])
    | .parameter name (.trimmed atEnd longest word) inQuotes =>
      let (machine, word) := settleWord (settle fuel streams line) machine (Token.plainWord word)
      let text := machine.value name .value
      let text := if atEnd then withoutEnd longest (machine.pattern word) text
        else withoutStart longest (machine.pattern word) text
      (machine, [.inserted text inQuotes])
    | piece => (machine, [piece])

/-- Runs a command.  `tested` says that somebody asks about its success.  Nothing happens any more
once the program has ended. -/
def run : Nat → Bool → Streams → Machine → Command → Machine
  | 0, _, _, machine, _ => machine
  | fuel + 1, tested, streams, machine, command =>
    if machine.ending.isSome then machine
    else match command with
    | .nothing => machine
    | .simple line assignments words redirects =>
      let settled := settle fuel streams line
      let asksOutput := assignments.any (fun (_, word) => hasOutput word)
      let (machine, words) := settleWords settled machine words
      let (machine, values) := settleWords settled machine (assignments.map Prod.snd)
      let (machine, redirects) := settleRedirects settled machine redirects
      if machine.ending.isSome then machine
      else
        let assignments := (assignments.map Prod.fst).zip values
        let status := if asksOutput then machine.status else 0
        (machine.runSimple streams line status assignments words redirects).check tested
    | .sequence first second =>
      run fuel tested streams (run fuel tested streams machine first) second
    | .both first second =>
      let machine := run fuel true streams machine first
      if machine.status = 0 then run fuel tested streams machine second else machine
    | .either first second =>
      let machine := run fuel true streams machine first
      if machine.status = 0 then machine else run fuel tested streams machine second
    | .negated command =>
      let machine := run fuel true streams machine command
      if machine.ending.isSome then machine
      else machine.finish (if machine.status = 0 then 1 else 0)
    | .pipe first second =>
      let written := machine.leave
        (run fuel false { streams with out := .pipe } { machine with piped := .empty } first)
      let read := written.leave
        (run fuel false streams { written with piped := machine.piped, input := written.piped }
          second)
      { read with input := written.input }.check tested
    | .branch condition yes no =>
      let machine := run fuel true streams machine condition
      if machine.status = 0 then run fuel tested streams machine yes
      else if machine.ending.isSome then machine
      else run fuel tested streams (machine.finish 0) no
    | .choose line word patterns body otherwise =>
      let (machine, settled) := settleWord (settle fuel streams line) machine word
      let (machine, patterns) := settleWords (settle fuel streams line) machine patterns
      if patterns.any (fun p => isMatch (machine.pattern p) (machine.text settled)) then
        run fuel tested streams (machine.finish 0) body
      else run fuel tested streams (machine.finish 0) otherwise
    | .loop untilSuccess condition body =>
      runLoop fuel tested streams machine untilSuccess condition body 0
    | .each line name words body =>
      let (machine, words) := settleWords (settle fuel streams line) machine words
      (machine.fields words).foldl (fun machine field =>
        if machine.ending.isSome then machine
        else run fuel tested streams { machine with vars := machine.vars.insert name field } body)
        (machine.finish 0)
    | .subshell command =>
      (machine.leave (run fuel tested streams machine command)).check tested
    | .redirected line command redirects =>
      let (machine, redirects) := settleRedirects (settle fuel streams line) machine redirects
      machine.under streams line redirects fun inner machine =>
        run fuel tested inner machine command

/-- Runs a command as often as a condition allows, with the status of the last time. -/
def runLoop : Nat → Bool → Streams → Machine → Bool → Command → Command → Nat → Machine
  | 0, _, _, machine, _, _, _, _ => machine
  | fuel + 1, tested, streams, machine, untilSuccess, condition, body, status =>
    let machine := run fuel true streams machine condition
    if machine.ending.isSome then machine
    else if (machine.status == 0) == untilSuccess then machine.finish status
    else
      let machine := run fuel tested streams machine body
      if machine.ending.isSome then machine
      else runLoop fuel tested streams machine untilSuccess condition body machine.status

/-- Runs the text of a program. -/
def runProgram : Nat → Streams → Machine → List Char → Machine
  | 0, _, machine, _ => machine
  | fuel + 1, streams, machine, text =>
    match Command.ofText? text with
    | some command => run fuel false streams machine command
    | none => machine.complain streams 1 2 "Syntax error: end of file unexpected"

end

def runText (machine : Machine) (text : List Char) : Machine :=
  runProgram (1000 + 10 * text.length + machine.input.size) {} machine text

/-- How the program ended. -/
def result (machine : Machine) : Ending := machine.ending.getD (.exit machine.status)

end Machine

end Migrations.Shell
